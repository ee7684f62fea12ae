import Mathlib.Data.List.TakeWhile
import DocStore.Json.Printer
import DocStore.Json.Token

/-!
# Texts of numbers

The text of a number in JSON is made of the characters of numerals and starts with a digit or a
minus sign. That of a double has a point or an exponent, so it never reads back as an integer. That
of an integer that fits reads back as the integer.
-/

set_option autoImplicit false

namespace DocStore

open Json.Token (isNumeric)

/-- A text of the characters of numerals. -/
def Numeric (text : String) : Prop := ∀ c ∈ text.toList, isNumeric c = true

instance (text : String) : Decidable (Numeric text) :=
  List.decidableBAll _ text.toList

/-- A text that starts with a digit. -/
def DigitFirst (text : String) : Prop := ∃ c cs, text.toList = c :: cs ∧ c.isDigit = true

theorem numeric_ofList {cs : List Char} :
    Numeric (String.ofList cs) ↔ ∀ c ∈ cs, isNumeric c = true := by
  rw [Numeric, String.toList_ofList]

theorem numeric_append {a b : String} : Numeric (a ++ b) ↔ Numeric a ∧ Numeric b := by
  simp [Numeric, or_imp, forall_and]

theorem DigitFirst.append {a : String} (h : DigitFirst a) (b : String) : DigitFirst (a ++ b) := by
  obtain ⟨c, cs, ha, hc⟩ := h
  exact ⟨c, cs ++ b.toList, by simp [ha], hc⟩

/-- A text with a point or an exponent. -/
def Marked (text : String) : Prop := ∃ c ∈ text.toList, c = '.' ∨ c = 'e'

theorem Marked.append_left {b : String} (h : Marked b) (a : String) : Marked (a ++ b) := by
  obtain ⟨c, hb, hc⟩ := h
  exact ⟨c, by simp [hb], hc⟩

theorem Marked.append_right {a : String} (h : Marked a) (b : String) : Marked (a ++ b) := by
  obtain ⟨c, ha, hc⟩ := h
  exact ⟨c, by simp [ha], hc⟩

/-! ## Digits -/

theorem isDigit_of_mem_decimal {n : Nat} {c : Char} (h : c ∈ Nat.toDigits 10 n) :
    c.isDigit = true :=
  Nat.isDigit_of_mem_toDigits (by decide) (by decide) h

theorem isNumeric_of_isDigit {c : Char} (h : c.isDigit = true) : isNumeric c = true := by
  simp [isNumeric, h]

/-- Digits of a number behind any number of zeros. -/
theorem isDigit_of_mem_padded {n k : Nat} {c : Char}
    (h : c ∈ List.replicate k '0' ++ Nat.toDigits 10 n) : c.isDigit = true := by
  rcases List.mem_append.1 h with h | h
  · rw [List.eq_of_mem_replicate h]
    rfl
  · exact isDigit_of_mem_decimal h

theorem exists_toDigits (n : Nat) : ∃ c cs, Nat.toDigits 10 n = c :: cs ∧ c.isDigit = true := by
  cases h : Nat.toDigits 10 n with
  | nil => exact absurd h Nat.toDigits_ne_nil
  | cons c cs => exact ⟨c, cs, rfl, isDigit_of_mem_decimal (h ▸ List.mem_cons_self)⟩

theorem numeric_toString (n : Nat) : Numeric (toString n) := by
  rw [Nat.toString_eq_ofList_toDigits]
  exact numeric_ofList.2 fun _ hc => isNumeric_of_isDigit (isDigit_of_mem_decimal hc)

theorem digitFirst_toString (n : Nat) : DigitFirst (toString n) := by
  rw [DigitFirst, Nat.toString_eq_ofList_toDigits, String.toList_ofList]
  exact exists_toDigits n

theorem toList_toString_negSucc (n : Nat) :
    (toString (Int.negSucc n)).toList = '-' :: (toString (n + 1)).toList := by
  change ("-" ++ toString (n + 1)).toList = _
  simp

theorem numeric_toString_int (n : Int) : Numeric (toString n) := by
  cases n with
  | ofNat n => exact numeric_toString n
  | negSucc n => exact numeric_append.2 ⟨by decide, numeric_toString (n + 1)⟩

/-! ## Doubles -/

namespace Decimal

theorem numeric_positionalText (pointZero : Bool) (d : Decimal) :
    Numeric (positionalText pointZero d) := by
  unfold positionalText
  split
  · refine numeric_append.2 ⟨numeric_ofList.2 fun c hc => ?_, by cases pointZero <;> decide⟩
    rcases List.mem_append.1 hc with hc | hc
    · exact isNumeric_of_isDigit (isDigit_of_mem_decimal hc)
    · rw [List.eq_of_mem_replicate hc]
      rfl
  · refine numeric_ofList.2 fun c hc => ?_
    rcases List.mem_append.1 hc with hc | hc
    · exact isNumeric_of_isDigit (isDigit_of_mem_padded (List.mem_of_mem_take hc))
    · rcases List.mem_cons.1 hc with rfl | hc
      · rfl
      · exact isNumeric_of_isDigit (isDigit_of_mem_padded (List.mem_of_mem_drop hc))

theorem digitFirst_positionalText (pointZero : Bool) (d : Decimal) :
    DigitFirst (positionalText pointZero d) := by
  obtain ⟨c, cs, hcs, hc⟩ := exists_toDigits d.digits
  unfold positionalText
  split
  · exact DigitFirst.append ⟨c, cs ++ List.replicate d.exponent.toNat '0', by simp [hcs], hc⟩ _
  · -- There is at least one digit before the point.
    generalize hplaces : (-d.exponent).toNat = places
    dsimp only
    generalize hpadded : List.replicate (places + 1 - (Nat.toDigits 10 d.digits).length) '0' ++
      Nat.toDigits 10 d.digits = padded
    have hlength : places + 1 ≤ padded.length := by
      rw [← hpadded, List.length_append, List.length_replicate]
      omega
    cases padded with
    | nil => simp at hlength
    | cons b bs =>
        obtain ⟨whole, hwhole⟩ : ∃ whole, (b :: bs).length - places = whole + 1 :=
          ⟨(b :: bs).length - places - 1, by omega⟩
        refine ⟨b, _, by rw [String.toList_ofList, hwhole, List.take_succ_cons]; rfl, ?_⟩
        exact isDigit_of_mem_padded (hpadded ▸ List.mem_cons_self)

/-- Where whole numbers end in `.0`, every text has a point. -/
theorem marked_positionalText (d : Decimal) : Marked (positionalText true d) := by
  unfold positionalText
  split
  · exact Marked.append_left ⟨'.', by decide, .inl rfl⟩ _
  · exact ⟨'.', by simp, .inl rfl⟩

theorem numeric_scientificText (d : Decimal) : Numeric (scientificText d) := by
  have hdigits : ∀ c ∈ Nat.toDigits 10 d.digits, isNumeric c = true :=
    fun c hc => isNumeric_of_isDigit (isDigit_of_mem_decimal hc)
  unfold scientificText
  refine numeric_append.2
    ⟨numeric_append.2 ⟨numeric_ofList.2 fun c hc => ?_, ?_⟩, numeric_toString_int _⟩
  · split at hc
    · cases hc
    · rename_i heq
      exact hdigits c (heq ▸ hc)
    · rename_i d ds _ heq
      rcases List.mem_cons.1 hc with rfl | hc
      · exact hdigits _ (heq ▸ List.mem_cons_self)
      · rcases List.mem_cons.1 hc with rfl | hc
        · rfl
        · exact hdigits c (heq ▸ List.mem_cons_of_mem _ hc)
  · split <;> decide

theorem digitFirst_scientificText (d : Decimal) : DigitFirst (scientificText d) := by
  obtain ⟨c, cs, hcs, hc⟩ := exists_toDigits d.digits
  unfold scientificText
  refine DigitFirst.append (DigitFirst.append ?_ _) _
  rw [hcs]
  cases cs with
  | nil => exact ⟨c, [], String.toList_ofList, hc⟩
  | cons d ds => exact ⟨c, '.' :: d :: ds, String.toList_ofList, hc⟩

theorem marked_scientificText (d : Decimal) : Marked (scientificText d) := by
  unfold scientificText
  refine Marked.append_right (Marked.append_left ?_ _) _
  split <;> exact ⟨'e', by decide, .inr rfl⟩

/-! ## Texts in JSON -/

/-- The text of an absolute value. -/
theorem text_json (d : Decimal) :
    Numeric (Layout.json.text d) ∧ DigitFirst (Layout.json.text d) ∧
      Marked (Layout.json.text d) := by
  simp only [Layout.text, Layout.json]
  split
  · exact ⟨numeric_positionalText _ d, digitFirst_positionalText _ d, marked_positionalText d⟩
  · exact ⟨numeric_scientificText d, digitFirst_scientificText d, marked_scientificText d⟩

/-- The text of a finite double: perhaps a sign, then an absolute value with a point or an
exponent. -/
theorem format_json {f : Float} (hf : Binary64.isFinite f = true) :
    ∃ sign text, Layout.json.format f = sign ++ text ∧ (sign = "" ∨ sign = "-") ∧
      Numeric text ∧ DigitFirst text ∧ Marked text := by
  have hnan : Binary64.isNaN f = false := by
    simp only [Binary64.isFinite, Binary64.isNaN, decide_eq_true_eq, decide_eq_false_iff_not]
      at hf ⊢
    omega
  refine ⟨if Binary64.signBit f then "-" else "", Layout.json.text (shortest Layout.json.tie f),
    ?_, ?_, text_json _⟩
  · simp [Layout.format, hnan, hf]
  · cases Binary64.signBit f <;> simp

end Decimal

namespace Json

namespace Numeral

/-! ## Integers -/

/-- Digits that are gathered one by one make up the number that they denote. -/
theorem foldl_digitValue (cs : List Char) (init : Nat) :
    cs.foldl (fun n c => n * 10 + digitValue c) init = Nat.ofDigitChars 10 cs init := by
  simp only [Nat.ofDigitChars_eq_foldl, digitValue, Nat.mul_comm]
  rfl

theorem digitsValue_toDigits (n : Nat) : digitsValue (Nat.toDigits 10 n) = n := by
  rw [digitsValue, foldl_digitValue, Nat.ofDigitChars_ten_toDigits]

/-- The digits of a number other than zero do not start with a zero. -/
theorem exists_leading {n : Nat} (hn : 0 < n) :
    ∃ c cs, Nat.toDigits 10 n = c :: cs ∧ c ≠ '0' := by
  induction n using Nat.strongRecOn with
  | ind n ih =>
      rw [Nat.toDigits_eq_if (by decide)]
      split
      · rename_i hlt
        refine ⟨n.digitChar, [], rfl, ?_⟩
        have hchars : ∀ d < 10, 0 < d → d.digitChar ≠ '0' := by decide
        exact hchars n hlt hn
      · rename_i hle
        obtain ⟨c, cs, hcs, hc⟩ := ih (n / 10) (by omega) (by omega)
        exact ⟨c, cs ++ [(n % 10).digitChar], by rw [hcs]; rfl, hc⟩

theorem isWhole_toDigits (n : Nat) : isWhole (Nat.toDigits 10 n) = true := by
  by_cases hn : n = 0
  · subst hn
    rw [Nat.toDigits_zero]
    rfl
  · obtain ⟨c, cs, hcs, hc⟩ := exists_leading (Nat.pos_of_ne_zero hn)
    rw [hcs]
    unfold isWhole
    split <;> simp_all

/-- The digits of a number are read as a whole. -/
theorem unsigned?_toDigits (negative : Bool) (n : Nat) :
    unsigned? negative (Nat.toDigits 10 n) =
      some { negative, whole := Nat.toDigits 10 n, fraction := none, exponent := none } := by
  have hdigits : ∀ c ∈ Nat.toDigits 10 n, c.isDigit = true := fun _ => isDigit_of_mem_decimal
  have hspan : spanDigits (Nat.toDigits 10 n) = (Nat.toDigits 10 n, []) := by
    rw [spanDigits, List.takeWhile_eq_self_iff.2 hdigits, List.dropWhile_eq_nil_iff.2 hdigits]
  simp [unsigned?, hspan, isWhole_toDigits, exponent?]

/-- **An integer that fits reads back as itself.** -/
theorem read?_toString {n : Int} (hmin : -(1 <<< 63) ≤ n) (hmax : n < UInt64.size) :
    read? (toString n).toList = some (.integer n) := by
  cases n with
  | ofNat n =>
      obtain ⟨c, cs, hcs, hc⟩ := exists_toDigits n
      -- No digit is a minus sign.
      have hparts : parts? (Nat.toDigits 10 n) = unsigned? false (Nat.toDigits 10 n) := by
        rw [hcs, parts?]
        rintro cs' heq
        cases heq
        exact absurd hc (by decide)
      have hlt : n < UInt64.size := Int.ofNat_lt.1 hmax
      change read? (toString n).toList = _
      rw [Nat.toString_eq_ofList_toDigits, String.toList_ofList, read?, hparts,
        unsigned?_toDigits]
      simp [value?, digitsValue_toDigits, hlt]
  | negSucc n =>
      have htext : (toString (Int.negSucc n)).toList = '-' :: Nat.toDigits 10 (n + 1) := by
        rw [toList_toString_negSucc, Nat.toString_eq_ofList_toDigits, String.toList_ofList]
      have hfits : 0 < n + 1 ∧ n + 1 ≤ 1 <<< 63 := by
        have hbound : (1 <<< 63 : Int) = 9223372036854775808 := by decide
        omega
      rw [htext, read?, parts?, unsigned?_toDigits, Option.bind_some]
      simp only [value?, digitsValue_toDigits, if_true, if_pos hfits]
      rfl

/-! ## Doubles -/

theorem eq_nil_of_exponent? {cs : List Char} (h : exponent? cs = some none) : cs = [] := by
  cases cs with
  | nil => rfl
  | cons c cs =>
      simp only [exponent?] at h
      split at h
      · split at h <;> split at h <;> cases h
      · cases h

/-- Numerals without a point and an exponent have digits only. -/
theorem isDigit_of_unsigned? {negative : Bool} {cs : List Char} {p : Parts}
    (h : unsigned? negative cs = some p) (hfraction : p.fraction = none)
    (hexponent : p.exponent = none) : ∀ c ∈ cs, c.isDigit = true := by
  unfold unsigned? spanDigits at h
  simp only at h
  split at h
  · split at h
    · split at h
      · cases h
      · obtain ⟨e, _, h⟩ := Option.map_eq_some_iff.1 h
        subst h
        cases hfraction
    · obtain ⟨e, he, h⟩ := Option.map_eq_some_iff.1 h
      subst h
      simp only at hexponent
      subst hexponent
      exact List.dropWhile_eq_nil_iff.1 (eq_nil_of_exponent? he)
  · cases h

theorem isDigit_of_parts? {cs : List Char} {p : Parts} (h : parts? cs = some p)
    (hfraction : p.fraction = none) (hexponent : p.exponent = none) :
    ∀ c ∈ cs, c = '-' ∨ c.isDigit = true := by
  unfold parts? at h
  intro c hc
  split at h
  · rcases List.mem_cons.1 hc with rfl | hc
    · exact .inl rfl
    · exact .inr (isDigit_of_unsigned? h hfraction hexponent c hc)
  · exact .inr (isDigit_of_unsigned? h hfraction hexponent c hc)

/-- **A double never reads back as an integer.** -/
theorem read?_format {f : Float} (hf : Binary64.isFinite f = true) {n : Number}
    (h : read? (Decimal.Layout.json.format f).toList = some n) : ∃ g, n = .double g := by
  obtain ⟨p, hp, hvalue⟩ := Option.bind_eq_some_iff.1 h
  unfold value? at hvalue
  simp only at hvalue
  split at hvalue
  · rename_i hfraction hexponent
    obtain ⟨sign, text, htext, _, _, _, c, hc, hmark⟩ := Decimal.format_json hf
    have hmem : c ∈ (Decimal.Layout.json.format f).toList := by simp [htext, hc]
    -- The point or the exponent would have to be a digit or a minus sign.
    have hplain := isDigit_of_parts? hp hfraction hexponent c hmem
    rcases hmark with rfl | rfl <;> exact absurd hplain (by decide)
  · obtain ⟨g, _, hg⟩ := Option.map_eq_some_iff.1 hvalue
    exact ⟨_, hg.symm⟩

end Numeral

end Json

end DocStore
