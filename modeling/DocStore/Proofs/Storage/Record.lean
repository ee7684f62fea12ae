import Mathlib.Data.Option.Basic
import DocStore.Proofs.Json.Printer
import DocStore.Storage.Record

/-!
# Lines of records

The line of a record is plain text, and it decodes to what its JSON text is read as: the checksum
that stands before the text is that of the text. The bytes of a text read back as the text, and a
byte below 128 stands for a character of its own, so that only a line feed puts its byte into a
text.
-/

set_option autoImplicit false

namespace DocStore.JournalRecord

/-! ## Texts as bytes -/

/-- The bytes of a text are those of its characters. -/
theorem utf8_eq_flatMap (text : String) :
    utf8 text = text.toList.flatMap String.utf8EncodeChar := by
  obtain ⟨cs, rfl⟩ : ∃ cs, text = String.ofList cs := ⟨text.toList, String.ofList_toList.symm⟩
  rw [String.toList_ofList]
  exact List.toList_data_toByteArray

@[simp] theorem utf8_append (a b : String) : utf8 (a ++ b) = utf8 a ++ utf8 b := by
  simp [utf8_eq_flatMap]

theorem ofUtf8?_utf8 (text : String) : ofUtf8? (utf8 text) = some text := by
  have hvalid : (⟨(utf8 text).toArray⟩ : ByteArray).IsValidUTF8 := text.isValidUTF8
  rw [ofUtf8?, String.fromUTF8?, dif_pos hvalid]
  rfl

/-! ### Control characters -/

/-- A byte below 128 is the number of its character. -/
theorem toNat_of_mem_utf8EncodeChar {c : Char} {b : UInt8} (h : b ∈ String.utf8EncodeChar c)
    (hb : b.toNat < 128) : c.toNat = b.toNat := by
  have hhigh : ∀ {n : Nat}, 128 ≤ n → n < 256 → b ≠ UInt8.ofNat n := by
    rintro n hlow hbound rfl
    rw [UInt8.toNat_ofNat'] at hb
    omega
  simp only [String.utf8EncodeChar] at h
  split at h
  · rw [List.mem_singleton] at h
    subst h
    rw [UInt8.toNat_ofNat']
    change c.val.toNat = _
    omega
  · -- Every byte of a longer character has its highest bit set.
    exfalso
    split at h
    · simp only [List.mem_cons, List.not_mem_nil, or_false] at h
      rcases h with h | h <;> exact hhigh (by omega) (by omega) h
    · split at h
      · simp only [List.mem_cons, List.not_mem_nil, or_false] at h
        rcases h with h | h | h <;> exact hhigh (by omega) (by omega) h
      · simp only [List.mem_cons, List.not_mem_nil, or_false] at h
        rcases h with h | h | h | h <;> exact hhigh (by omega) (by omega) h

/-- A text without control characters has no bytes of them. -/
theorem le_of_mem_utf8 {text : String} (h : ∀ c ∈ text.toList, 32 ≤ c.toNat) {b : UInt8}
    (hb : b ∈ utf8 text) : 32 ≤ b.toNat := by
  rw [utf8_eq_flatMap, List.mem_flatMap] at hb
  obtain ⟨c, hc, hb⟩ := hb
  by_cases hlow : b.toNat < 128
  · rw [← toNat_of_mem_utf8EncodeChar hb hlow]
    exact h c hc
  · omega

/-! ## Checksums -/

/-- The digits of a number are those of the numbers below sixteen. -/
theorem exists_digitChar {n : Nat} {c : Char} (h : c ∈ Nat.toDigits 16 n) :
    ∃ d < 16, c = Nat.digitChar d := by
  induction n using Nat.strongRecOn with
  | ind n ih =>
      rw [Nat.toDigits_eq_if (by decide)] at h
      split at h
      · rename_i hlt
        exact ⟨n, hlt, List.mem_singleton.1 h⟩
      · rename_i hle
        rcases List.mem_append.1 h with h | h
        · exact ih (n / 16) (by omega) h
        · exact ⟨n % 16, Nat.mod_lt _ (by decide), List.mem_singleton.1 h⟩

theorem exists_digitChar_hexText {checksum : UInt32} {c : Char}
    (h : c ∈ (hexText checksum).toList) : ∃ d < 16, c = Nat.digitChar d := by
  rw [hexText, String.toList_ofList] at h
  rcases List.mem_append.1 h with h | h
  · exact ⟨0, by decide, List.eq_of_mem_replicate h⟩
  · exact exists_digitChar h

theorem plain_digitChar : ∀ d < 16, 32 ≤ (Nat.digitChar d).toNat := by decide

theorem plain_hexText (checksum : UInt32) : Plain (hexText checksum) := by
  intro c hc
  obtain ⟨d, hd, rfl⟩ := exists_digitChar_hexText hc
  exact plain_digitChar d hd

/-- The digit of a number is read as the number. It is no space and no plus sign. -/
theorem hexDigit?_digitChar : ∀ d < 16, hexDigit? (Nat.digitChar d) = some d ∧
    Nat.digitChar d ≠ ' ' ∧ Nat.digitChar d ≠ '+' := by decide

/-- The digits of a number, after any number of zeros, are read as numbers that make it up. -/
theorem mapM_hexDigit? (k n : Nat) : ∃ d ds,
    (List.replicate k '0' ++ Nat.toDigits 16 n).mapM hexDigit? = some (d :: ds) ∧
      (d :: ds).foldl (fun n d => n * 16 + d) 0 = n := by
  induction k with
  | zero =>
      induction n using Nat.strongRecOn with
      | ind n ih =>
          rw [Nat.toDigits_eq_if (by decide)]
          split
          · rename_i hlt
            exact ⟨n, [], by simp [(hexDigit?_digitChar n hlt).1], by simp⟩
          · rename_i hle
            obtain ⟨d, ds, hdigits, hvalue⟩ := ih (n / 16) (by omega)
            have hlast := (hexDigit?_digitChar (n % 16) (Nat.mod_lt _ (by decide))).1
            refine ⟨d, ds ++ [n % 16], ?_, ?_⟩
            · rw [List.replicate_zero, List.nil_append] at hdigits ⊢
              simp [List.mapM_append, hdigits, hlast]
            · rw [← List.cons_append, List.foldl_append, hvalue]
              simp only [List.foldl_cons, List.foldl_nil]
              omega
  | succ k ih =>
      obtain ⟨d, ds, hdigits, hvalue⟩ := ih
      have hzero : hexDigit? '0' = some 0 := by decide
      refine ⟨0, d :: ds, ?_, hvalue⟩
      simp [List.replicate_succ, hzero, hdigits]

/-- **A checksum is read back.** -/
theorem hexValue?_hexText (checksum : UInt32) :
    hexValue? (hexText checksum).toList = some checksum := by
  obtain ⟨d, ds, hdigits, hvalue⟩ :=
    mapM_hexDigit? (8 - (Nat.toDigits 16 checksum.toNat).length) checksum.toNat
  have htext : (hexText checksum).toList.mapM hexDigit? = some (d :: ds) := by
    rw [hexText, String.toList_ofList]
    exact hdigits
  have hplus : ∀ cs, (hexText checksum).toList ≠ '+' :: cs := by
    intro cs hcs
    have hmem : '+' ∈ (hexText checksum).toList := hcs ▸ List.mem_cons_self
    obtain ⟨d, hd, hchar⟩ := exists_digitChar_hexText hmem
    exact (hexDigit?_digitChar d hd).2.2 hchar.symm
  -- What is written bears no plus sign.
  unfold hexValue?
  split
  · rename_i cs hcs
    exact absurd hcs (hplus cs)
  · rw [htext]
    change (if (d :: ds).foldl (fun n d => n * 16 + d) 0 < UInt32.size then
      some (UInt32.ofNat ((d :: ds).foldl (fun n d => n * 16 + d) 0)) else none) = some checksum
    rw [hvalue, if_pos checksum.toNat_lt_size, UInt32.ofNat_toNat]

/-! ## Lines -/

/-- The line of a record without its line feed. -/
def line (r : JournalRecord) : String :=
  hexText (Crc32.checksum (utf8 r.toJson.render)) ++ " " ++ r.toJson.render

theorem toLine_eq (r : JournalRecord) : r.toLine = r.line ++ "\n" := rfl

theorem plain_line (r : JournalRecord) : Plain r.line :=
  plain_append.2 ⟨plain_append.2 ⟨plain_hexText _, by decide⟩, Json.plain_render _⟩

/-- A line of a checksum and a text is read as a record if the checksum is that of the text. -/
theorem ofLine_hexText (checksum : UInt32) (json : String) :
    ofLine (hexText checksum ++ " " ++ json) =
      if Crc32.checksum (utf8 json) = checksum then
        match (Json.written? json).bind ofJson? with
        | some r => .ok r
        | none => .error .unreadableRecord
      else .error .wrongChecksum := by
  have hline : (hexText checksum ++ " " ++ json).toList =
      (hexText checksum).toList ++ ' ' :: json.toList := by
    simp
  have hdigits : ∀ c ∈ (hexText checksum).toList, (c != ' ') = true := by
    intro c hc
    obtain ⟨d, hd, rfl⟩ := exists_digitChar_hexText hc
    exact bne_iff_ne.2 (hexDigit?_digitChar d hd).2.1
  have htext : (hexText checksum ++ " " ++ json).toList.dropWhile (· != ' ') =
      ' ' :: json.toList := by
    rw [hline, List.dropWhile_append_of_pos hdigits]
    rfl
  have hchecksum : (hexText checksum ++ " " ++ json).toList.takeWhile (· != ' ') =
      (hexText checksum).toList := by
    rw [hline, List.takeWhile_append_of_pos hdigits]
    exact List.append_nil _
  cases hread : (Json.written? json).bind ofJson? <;>
    simp only [ofLine, htext, hchecksum, hexValue?_hexText, String.ofList_toList, hread]

/-- **A line decodes to what its JSON text is read as.** -/
theorem ofLine_line (r : JournalRecord) :
    ofLine r.line = match (Json.written? r.toJson.render).bind ofJson? with
      | some r => .ok r
      | none => .error .unreadableRecord := by
  rw [line, ofLine_hexText, if_pos rfl]

end DocStore.JournalRecord
