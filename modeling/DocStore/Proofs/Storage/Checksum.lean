import Mathlib.Data.Nat.Bitwise
import DocStore.Proofs.Storage.Record
import DocStore.Storage.Replay

/-!
# Changes that a checksum tells

Shifting the register is linear in exclusive or and one-to-one, so registers that differ stay
different whatever bytes follow. Registers that come together after `n ≤ 4` bytes differ in their
lowest `8 n` bits at most, so texts that differ in a window of four bytes have different checksums,
and a line whose JSON text was changed in such a window is refused: `ofLine_of_differWithin`.
-/

set_option autoImplicit false

namespace DocStore

/-- Bytes that are the same but for a window of at most so many. -/
def DifferWithin (width : Nat) (a b : Bytes) : Prop :=
  ∃ before old new after, a = before ++ old ++ after ∧ b = before ++ new ++ after ∧
    old.length = new.length ∧ old.length ≤ width ∧ old ≠ new

namespace Crc32

/-! ## Shifting bits -/

/-- The lowest bit decides whether the polynomial is added. -/
theorem and_one_eq_one_iff (r : UInt32) : r &&& 1 = 1 ↔ r.toNat % 2 = 1 := by
  rw [← UInt32.toNat_inj, UInt32.toNat_and]
  change r.toNat &&& 1 = 1 ↔ _
  rw [Nat.and_one_is_mod]

theorem toNat_shiftRight_one (r : UInt32) : (r >>> 1).toNat = r.toNat / 2 := by
  rw [UInt32.toNat_shiftRight]
  exact Nat.shiftRight_one r.toNat

theorem shiftBit_of_even {r : UInt32} (h : r.toNat % 2 = 0) : shiftBit r = r >>> 1 := by
  rw [shiftBit, if_neg]
  rw [and_one_eq_one_iff]
  omega

theorem shiftBit_of_odd {r : UInt32} (h : r.toNat % 2 = 1) :
    shiftBit r = (r >>> 1) ^^^ polynomial :=
  if_pos ((and_one_eq_one_iff r).2 h)

theorem shiftBit_xor (a b : UInt32) : shiftBit (a ^^^ b) = shiftBit a ^^^ shiftBit b := by
  have hparity : (a ^^^ b).toNat % 2 = (a.toNat + b.toNat) % 2 := by
    rw [UInt32.toNat_xor, Nat.xor_mod_two_eq]
  rcases Nat.mod_two_eq_zero_or_one a.toNat with ha | ha <;>
    rcases Nat.mod_two_eq_zero_or_one b.toNat with hb | hb
  · rw [shiftBit_of_even (by omega), shiftBit_of_even ha, shiftBit_of_even hb,
      UInt32.shiftRight_xor]
  · rw [shiftBit_of_odd (by omega), shiftBit_of_even ha, shiftBit_of_odd hb,
      UInt32.shiftRight_xor, UInt32.xor_assoc]
  · rw [shiftBit_of_odd (by omega), shiftBit_of_odd ha, shiftBit_of_even hb,
      UInt32.shiftRight_xor, UInt32.xor_assoc, UInt32.xor_assoc, UInt32.xor_comm polynomial]
  · -- The polynomial is added on both sides, and so not at all.
    rw [shiftBit_of_even (by omega), shiftBit_of_odd ha, shiftBit_of_odd hb,
      UInt32.shiftRight_xor, UInt32.xor_assoc, UInt32.xor_comm (b >>> 1),
      ← UInt32.xor_assoc polynomial, UInt32.xor_self, UInt32.zero_xor]

/-- The polynomial has the highest bit, which a shifted register has not. -/
theorem eq_zero_of_shiftBit {r : UInt32} (h : shiftBit r = 0) : r = 0 := by
  have hlt := r.toNat_lt
  rcases Nat.mod_two_eq_zero_or_one r.toNat with heven | hodd
  · rw [shiftBit_of_even heven, ← UInt32.toNat_inj, toNat_shiftRight_one] at h
    rw [← UInt32.toNat_inj]
    change r.toNat / 2 = 0 at h
    change r.toNat = 0
    omega
  · rw [shiftBit_of_odd hodd, UInt32.xor_eq_zero_iff, ← UInt32.toNat_inj,
      toNat_shiftRight_one] at h
    change r.toNat / 2 = 0xEDB88320 at h
    omega

theorem shiftBits_xor (n : Nat) (a b : UInt32) :
    shiftBits n (a ^^^ b) = shiftBits n a ^^^ shiftBits n b := by
  induction n generalizing a b with
  | zero => rfl
  | succ n ih => rw [shiftBits, shiftBits, shiftBits, shiftBit_xor, ih]

/-- **Shifting is one-to-one.** -/
theorem shiftBits_inj {n : Nat} {a b : UInt32} : shiftBits n a = shiftBits n b ↔ a = b := by
  refine ⟨fun h => ?_, fun h => h ▸ rfl⟩
  rw [← UInt32.xor_eq_zero_iff, ← shiftBits_xor] at h
  rw [← UInt32.xor_eq_zero_iff]
  generalize a ^^^ b = r at h ⊢
  induction n generalizing r with
  | zero => exact h
  | succ n ih => exact eq_zero_of_shiftBit (ih _ h)

/-- Zeros that are shifted out leave the other bits as they are. -/
theorem toNat_shiftBits {n m : Nat} {r : UInt32} (h : r.toNat = m * 2 ^ n) :
    (shiftBits n r).toNat = m := by
  induction n generalizing r with
  | zero => rw [shiftBits, h, Nat.pow_zero, Nat.mul_one]
  | succ n ih =>
      rw [Nat.pow_succ, ← Nat.mul_assoc] at h
      rw [shiftBits, shiftBit_of_even (by omega)]
      exact ih (by rw [toNat_shiftRight_one, h, Nat.mul_div_cancel _ (by decide)])

/-- What is shifted to a number of 24 bits had zeros for the byte that was shifted out. -/
theorem toNat_of_shiftBits {r : UInt32} (h : (shiftBits 8 r).toNat < 2 ^ 24) :
    r.toNat = (shiftBits 8 r).toNat * 2 ^ 8 := by
  obtain ⟨m, hm⟩ : ∃ m, m = (shiftBits 8 r).toNat := ⟨_, rfl⟩
  have hsmall : (UInt32.ofNat (m * 2 ^ 8)).toNat = m * 2 ^ 8 := by
    rw [UInt32.toNat_ofNat']
    exact Nat.mod_eq_of_lt (by omega)
  have hshifted : shiftBits 8 (UInt32.ofNat (m * 2 ^ 8)) = shiftBits 8 r := by
    rw [← UInt32.toNat_inj, toNat_shiftBits hsmall, hm]
  rw [← shiftBits_inj.1 hshifted, hsmall, toNat_shiftBits hsmall]

/-! ## Bytes -/

/-- **One byte.** Exclusive or of two registers goes through a byte with that of the bytes. -/
theorem step_xor_step (r s : UInt32) (a b : UInt8) :
    step r a ^^^ step s b = shiftBits 8 ((r ^^^ s) ^^^ (a.toUInt32 ^^^ b.toUInt32)) := by
  rw [step, step, ← shiftBits_xor]
  congr 1
  rw [UInt32.xor_assoc, UInt32.xor_assoc, ← UInt32.xor_assoc a.toUInt32,
    UInt32.xor_comm a.toUInt32 s, UInt32.xor_assoc s]

/-- Registers that differ stay different. -/
theorem run_inj {r s : UInt32} {bytes : Bytes} : run r bytes = run s bytes ↔ r = s := by
  refine ⟨fun h => ?_, fun h => h ▸ rfl⟩
  induction bytes generalizing r s with
  | nil => exact h
  | cons b rest ih =>
      have hstep : step r b = step s b := ih h
      rw [step, step, shiftBits_inj] at hstep
      exact (UInt32.xor_left_inj _).1 hstep

theorem run_append (r : UInt32) (a b : Bytes) : run r (a ++ b) = run (run r a) b :=
  List.foldl_append

theorem toNat_xor_toUInt32_lt (a b : UInt8) : (a.toUInt32 ^^^ b.toUInt32).toNat < 2 ^ 8 := by
  rw [UInt32.toNat_xor, UInt8.toNat_toUInt32, UInt8.toNat_toUInt32]
  exact Nat.xor_lt_two_pow a.toNat_lt b.toNat_lt

/-- Registers of which the difference after a byte has so few bits differed in eight bits more, and
if they did not differ, neither did the bytes. -/
theorem xor_lt_of_step {k : Nat} {r s : UInt32} {a b : UInt8} (hk : k ≤ 24)
    (h : (step r a ^^^ step s b).toNat < 2 ^ k) :
    (r ^^^ s).toNat < 2 ^ (k + 8) ∧ (r = s → a = b) := by
  rw [step_xor_step] at h
  -- The difference after the byte has 24 bits at most, so zeros were shifted out.
  have hpow : 2 ^ k ≤ 2 ^ 24 := Nat.pow_le_pow_right (by decide) hk
  have hshifted := toNat_of_shiftBits (Nat.lt_of_lt_of_le h hpow)
  have hbytes := toNat_xor_toUInt32_lt a b
  constructor
  · have hdiffer : ((r ^^^ s) ^^^ (a.toUInt32 ^^^ b.toUInt32)).toNat < 2 ^ (k + 8) := by
      rw [hshifted, Nat.pow_add]
      exact Nat.mul_lt_mul_of_pos_right h (by decide)
    have hcancel : r ^^^ s = ((r ^^^ s) ^^^ (a.toUInt32 ^^^ b.toUInt32)) ^^^
        (a.toUInt32 ^^^ b.toUInt32) := by
      rw [UInt32.xor_assoc, UInt32.xor_self, UInt32.xor_zero]
    rw [hcancel, UInt32.toNat_xor]
    refine Nat.xor_lt_two_pow hdiffer (Nat.lt_of_lt_of_le hbytes ?_)
    exact Nat.pow_le_pow_right (by decide) (by omega)
  · rintro rfl
    rw [UInt32.xor_self, UInt32.zero_xor] at hshifted
    have hequal : a.toUInt32 ^^^ b.toUInt32 = 0 := by
      rw [← UInt32.toNat_inj]
      change _ = 0
      omega
    rw [UInt32.xor_eq_zero_iff, ← UInt32.toNat_inj, UInt8.toNat_toUInt32,
      UInt8.toNat_toUInt32] at hequal
    exact UInt8.toNat_inj.1 hequal

/-- **Four bytes.** Registers that come together after so many bytes differ in the lowest bits only,
and if they do not differ, neither do the bytes. -/
theorem xor_lt_of_run_eq {r s : UInt32} {as bs : Bytes} (hlength : as.length = bs.length)
    (hfour : as.length ≤ 4) (h : run r as = run s bs) :
    (r ^^^ s).toNat < 2 ^ (8 * as.length) ∧ (r = s → as = bs) := by
  induction as generalizing r s bs with
  | nil =>
      obtain rfl : bs = [] := List.eq_nil_of_length_eq_zero hlength.symm
      have hrs : r = s := h
      simp [hrs]
  | cons a as ih =>
      obtain _ | ⟨b, bs⟩ := bs
      · cases hlength
      rw [List.length_cons, List.length_cons] at hlength
      rw [List.length_cons] at hfour ⊢
      obtain ⟨hlow, hrest⟩ := ih (r := step r a) (s := step s b) (by omega) (by omega) h
      obtain ⟨hbefore, hfirst⟩ := xor_lt_of_step (by omega) hlow
      refine ⟨hbefore, ?_⟩
      rintro rfl
      obtain rfl := hfirst rfl
      rw [hrest rfl]

/-- **A window of four bytes.** Bytes that differ in one have different checksums. -/
theorem checksum_ne {a b : Bytes} (h : DifferWithin 4 a b) : checksum a ≠ checksum b := by
  obtain ⟨before, old, new, after, rfl, rfl, hlength, hfour, hne⟩ := h
  intro heq
  rw [checksum, checksum, UInt32.xor_left_inj, run_append, run_append, run_append, run_append,
    run_inj] at heq
  exact hne ((xor_lt_of_run_eq hlength hfour heq).2 rfl)

end Crc32

namespace JournalRecord

/-! ## Lines -/

/-- The line of a record without its line feed, with some text in the place of its JSON text. -/
def lineWith (r : JournalRecord) (json : String) : String :=
  hexText (Crc32.checksum (utf8 r.toJson.render)) ++ " " ++ json

theorem toLine_eq_lineWith (r : JournalRecord) : r.toLine = r.lineWith r.toJson.render ++ "\n" :=
  rfl

theorem isEmpty_lineWith (r : JournalRecord) (json : String) :
    (r.lineWith json).isEmpty = false := by
  simp [lineWith]

/-- **A change of up to four bytes is found.** A line whose JSON text was changed in a window of at
most four bytes is refused for its checksum, and a journal with this line is corrupt at it. -/
theorem ofLine_of_differWithin {r : JournalRecord} {json : String}
    (h : DifferWithin 4 (utf8 r.toJson.render) (utf8 json)) :
    ofLine (r.lineWith json) = .error .wrongChecksum ∧
      ∀ (s : Replayed) (number : Nat) (rest : List Bytes),
        s.applyLines number (utf8 (r.lineWith json) :: rest) =
          .error (.corruption (.line number .wrongChecksum)) := by
  have hline : ofLine (r.lineWith json) = .error .wrongChecksum := by
    rw [lineWith, ofLine_hexText, if_neg (Crc32.checksum_ne h).symm]
  refine ⟨hline, fun s number rest => ?_⟩
  have happly : s.applyLine (r.lineWith json) = .error .wrongChecksum := by
    rw [Replayed.applyLine, isEmpty_lineWith, hline]
    rfl
  simp only [Replayed.applyLines, ofUtf8?_utf8, happly]

/-- A stock of 40 that became one of 41. -/
theorem ofLine_of_differWithin_stock :
    let r : JournalRecord := .insert (.make (.int 1) [("stock", .int 40)])
    let json := "\x7b\"op\":\"insert\",\"doc\":\x7b\"_id\":1,\"stock\":41\x7d\x7d"
    DifferWithin 4 (utf8 r.toJson.render) (utf8 json) ∧
      ofLine (r.lineWith json) = .error .wrongChecksum ∧
        ∀ (s : Replayed) (number : Nat) (rest : List Bytes),
          s.applyLines number (utf8 (r.lineWith json) :: rest) =
            .error (.corruption (.line number .wrongChecksum)) := by
  intro r json
  have hdiffer : DifferWithin 4 (utf8 r.toJson.render) (utf8 json) :=
    ⟨utf8 "\x7b\"op\":\"insert\",\"doc\":\x7b\"_id\":1,\"stock\":4", [48], [49], utf8 "\x7d\x7d",
      by decide +kernel, by decide +kernel, rfl, by decide, by decide⟩
  exact ⟨hdiffer, ofLine_of_differWithin hdiffer⟩

end JournalRecord

end DocStore
