import Mathlib.Data.List.Basic
import DocStore.Proofs.Storage.Record
import DocStore.Text.Quoted

/-!
# Quoted texts are told apart

An escaped character ends where the next one begins, and no escaped character begins with a double
quote, so a quoted text can be told from what follows it (`encode_append_inj`).
-/

set_option autoImplicit false

namespace DocStore.Quoted

/-! ## Runs of characters -/

/-- A run of characters is told apart from what follows it, if that starts with another one. -/
theorem run_append_inj {p : Char → Bool} : ∀ {x y r s : List Char}, (∀ c ∈ x, p c = true) →
    (∀ c ∈ y, p c = true) → (∀ c ∈ r.head?, p c = false) → (∀ c ∈ s.head?, p c = false) →
    x ++ r = y ++ s → x = y ∧ r = s
  | [], [], _, _, _, _, _, _, h => ⟨rfl, h⟩
  | [], d :: y, _, s, _, hy, hr, _, h => by
    -- What follows the shorter run would start with a character of the longer one.
    subst h
    have hstop := hr d rfl
    rw [hy d List.mem_cons_self] at hstop
    cases hstop
  | c :: x, [], r, _, hx, _, _, hs, h => by
    subst h
    have hstop := hs c rfl
    rw [hx c List.mem_cons_self] at hstop
    cases hstop
  | c :: x, d :: y, _, _, hx, hy, hr, hs, h => by
    obtain ⟨rfl, hrest⟩ := List.cons.inj h
    obtain ⟨rfl, rfl⟩ := run_append_inj (fun e he => hx e (List.mem_cons_of_mem _ he))
      (fun e he => hy e (List.mem_cons_of_mem _ he)) hr hs hrest
    exact ⟨rfl, rfl⟩

/-! ## Characters by number -/

theorem toDigits_sixteen_inj {m n : Nat} (h : Nat.toDigits 16 m = Nat.toDigits 16 n) : m = n := by
  obtain ⟨d, ds, hm, hvalue⟩ := JournalRecord.mapM_hexDigit? 0 m
  obtain ⟨e, es, hn, hvalue'⟩ := JournalRecord.mapM_hexDigit? 0 n
  rw [h, hn] at hm
  cases hm
  exact hvalue.symm.trans hvalue'

theorem ne_brace_of_mem {n : Nat} : ∀ c ∈ Nat.toDigits 16 n, (c != '\x7d') = true := by
  intro c hmem
  obtain ⟨d, hd, rfl⟩ := JournalRecord.exists_digitChar hmem
  exact (by decide : ∀ d < 16, (Nat.digitChar d != '\x7d') = true) d hd

/-! ## Escapes -/

/-- The characters that are escaped by a letter. -/
def letters : List (Char × Char) :=
  [('"', '"'), ('\\', '\\'), ('\n', 'n'), ('\r', 'r'), ('\t', 't'), ('\x00', '0')]

/-- What an escaped character looks like. -/
inductive Escape : Char → List Char → Prop
  | plain {c : Char} (hquote : c ≠ '"') (hbackslash : c ≠ '\\') : Escape c [c]
  | letter {c l : Char} (h : (c, l) ∈ letters) : Escape c ['\\', l]
  | number (c : Char) : Escape c ('\\' :: 'u' :: '\x7b' :: (Nat.toDigits 16 c.toNat ++ ['\x7d']))

theorem escape_escapeChar (c : Char) : Escape c (escapeChar c) := by
  unfold escapeChar
  split
  case h_7 hquote hbackslash _ _ _ _ =>
    split
    · exact .plain hquote hbackslash
    · exact .number c
  all_goals exact .letter (by decide)

theorem Escape.head_ne_quote {c : Char} {cs r s : List Char} (h : Escape c cs) :
    cs ++ r ≠ '"' :: s := by
  cases h with
  | plain hquote _ => exact fun heq => hquote (List.cons.inj heq).1
  | letter | number => exact fun heq => absurd (List.cons.inj heq).1 (by decide)

/-- **Escaped characters are told apart** from what follows them. -/
theorem Escape.append_inj {c d : Char} {cs ds r s : List Char} (hc : Escape c cs)
    (hd : Escape d ds) (h : cs ++ r = ds ++ s) : c = d ∧ r = s := by
  -- After a backslash, the letter names the character or says that a number follows.
  have hletters : ∀ e ∈ letters, e.2 ≠ 'u' ∧ ∀ e' ∈ letters, e.2 = e'.2 → e.1 = e'.1 := by decide
  cases hc with
  | plain _ hbackslash =>
      cases hd with
      | plain => exact List.cons.inj h
      | letter | number => exact absurd (List.cons.inj h).1 hbackslash
  | letter hl =>
      cases hd with
      | plain _ hbackslash => exact absurd (List.cons.inj h).1.symm hbackslash
      | letter hl' =>
          obtain ⟨heq, hrest⟩ := List.cons.inj (List.cons.inj h).2
          exact ⟨(hletters _ hl).2 _ hl' heq, hrest⟩
      | number => exact absurd (List.cons.inj (List.cons.inj h).2).1 (hletters _ hl).1
  | number =>
      cases hd with
      | plain _ hbackslash => exact absurd (List.cons.inj h).1.symm hbackslash
      | letter hl' => exact absurd (List.cons.inj (List.cons.inj h).2).1.symm (hletters _ hl').1
      | number =>
          have hdigits : Nat.toDigits 16 c.toNat ++ ['\x7d'] ++ r =
              Nat.toDigits 16 d.toNat ++ ['\x7d'] ++ s :=
            (List.cons.inj (List.cons.inj (List.cons.inj h).2).2).2
          rw [List.append_assoc, List.append_assoc] at hdigits
          obtain ⟨hnumber, hrest⟩ := run_append_inj ne_brace_of_mem ne_brace_of_mem
            (by simp) (by simp) hdigits
          exact ⟨Char.toNat_inj.1 (toDigits_sixteen_inj hnumber), (List.cons.inj hrest).2⟩

/-! ## Texts -/

/-- The characters of a text up to the closing quote. -/
theorem flatMap_append_inj : ∀ {cs ds r s : List Char},
    cs.flatMap escapeChar ++ '"' :: r = ds.flatMap escapeChar ++ '"' :: s → cs = ds ∧ r = s
  | [], [], _, _, h => ⟨rfl, (List.cons.inj h).2⟩
  | [], d :: ds, _, _, h => by
    rw [List.flatMap_cons, List.append_assoc] at h
    exact absurd h.symm (escape_escapeChar d).head_ne_quote
  | c :: cs, [], _, _, h => by
    rw [List.flatMap_cons, List.append_assoc] at h
    exact absurd h (escape_escapeChar c).head_ne_quote
  | c :: cs, d :: ds, _, _, h => by
    rw [List.flatMap_cons, List.flatMap_cons, List.append_assoc, List.append_assoc] at h
    obtain ⟨rfl, hrest⟩ := (escape_escapeChar c).append_inj (escape_escapeChar d) h
    obtain ⟨rfl, rfl⟩ := flatMap_append_inj hrest
    exact ⟨rfl, rfl⟩

theorem exists_encode (s : String) : ∃ cs, (encode s).toList = '"' :: cs :=
  ⟨_, by rw [encode, String.toList_ofList, List.cons_append]⟩

/-- **A quoted text is told apart** from what follows it. -/
theorem encode_append_inj {a b : String} {r s : List Char}
    (h : (encode a).toList ++ r = (encode b).toList ++ s) : a = b ∧ r = s := by
  simp only [encode, String.toList_ofList, List.cons_append, List.append_assoc,
    List.nil_append, List.cons.injEq, true_and] at h
  obtain ⟨hchars, hrest⟩ := flatMap_append_inj h
  exact ⟨String.toList_injective hchars, hrest⟩

end DocStore.Quoted
