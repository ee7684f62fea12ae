import DocStore.Proofs.Json.Numeral
import DocStore.Proofs.Number.Shortest

/-!
# Plain texts of numbers

A plain text is a sign and digits with at most one point, so the number can be read off it
(`plainValue`). Doubles with the same plain text have the same shortest decimal and are the same
(`magnitude_eq_of_body`), and whole doubles below 2^53 are written like integers
(`format_of_scaled`).
-/

set_option autoImplicit false

namespace DocStore

/-! ## Signs -/

/-- A text after its sign. -/
def signed (negative : Bool) (body : String) : String := (if negative then "-" else "") ++ body

/-- A text that starts with no minus sign. -/
def Unsigned (body : String) : Prop := body.toList.head? ≠ some '-'

theorem DigitFirst.unsigned {body : String} (h : DigitFirst body) : Unsigned body := by
  obtain ⟨c, cs, hbody, hc⟩ := h
  rw [Unsigned, hbody, List.head?_cons]
  rintro heq
  cases heq
  exact absurd hc (by decide)

/-- **The sign is told apart** from what follows it. -/
theorem signed_inj {s t : Bool} {a b : String} (ha : Unsigned a) (hb : Unsigned b)
    (h : signed s a = signed t b) : s = t ∧ a = b := by
  have hlist := congrArg String.toList h
  cases s <;> cases t <;> simp only [signed, Bool.false_eq_true, if_false, if_true,
    String.toList_append, String.toList_empty, List.nil_append] at hlist
  · exact ⟨rfl, String.toList_injective hlist⟩
  · exact absurd (congrArg List.head? hlist) ha
  · exact absurd (congrArg List.head? hlist).symm hb
  · exact ⟨rfl, String.toList_injective (List.cons.inj hlist).2⟩

theorem toString_int (n : Int) : toString n = signed (decide (n < 0)) (toString n.natAbs) := by
  cases n with
  | ofNat n =>
      rw [show decide (Int.ofNat n < 0) = false from
        decide_eq_false (Int.not_lt.2 (Int.natCast_nonneg n))]
      exact String.empty_append.symm
  | negSucc n =>
      rw [decide_eq_true (Int.negSucc_lt_zero n)]
      rfl

/-! ## Reading plain texts -/

/-- The number that digits with at most one point stand for. -/
def plainValue (cs : List Char) : ℚ :=
  (Nat.ofDigitChars 10 (cs.filter (· != '.')) 0 : ℚ) /
    10 ^ ((cs.dropWhile (· != '.')).drop 1).length

theorem ne_point_of_isDigit {c : Char} (h : c.isDigit = true) : (c != '.') = true := by
  rw [bne_iff_ne]
  rintro rfl
  exact absurd h (by decide)

theorem filter_ne_point {cs : List Char} (h : ∀ c ∈ cs, c.isDigit = true) :
    cs.filter (· != '.') = cs :=
  List.filter_eq_self.2 fun c hc => ne_point_of_isDigit (h c hc)

theorem plainValue_digits {cs : List Char} (h : ∀ c ∈ cs, c.isDigit = true) :
    plainValue cs = Nat.ofDigitChars 10 cs 0 := by
  have hdrop : cs.dropWhile (· != '.') = [] :=
    List.dropWhile_eq_nil_iff.2 fun c hc => ne_point_of_isDigit (h c hc)
  rw [plainValue, filter_ne_point h, hdrop]
  simp

theorem plainValue_point {whole places : List Char} (hwhole : ∀ c ∈ whole, c.isDigit = true)
    (hplaces : ∀ c ∈ places, c.isDigit = true) :
    plainValue (whole ++ '.' :: places) =
      (Nat.ofDigitChars 10 (whole ++ places) 0 : ℚ) / 10 ^ places.length := by
  have hdrop : (whole ++ '.' :: places).dropWhile (· != '.') = '.' :: places := by
    rw [List.dropWhile_append_of_pos fun c hc => ne_point_of_isDigit (hwhole c hc)]
    rfl
  rw [plainValue, hdrop, List.filter_append, filter_ne_point hwhole,
    List.filter_cons_of_neg (by simp), filter_ne_point hplaces]
  rfl

theorem plainValue_toString (n : Nat) : plainValue (toString n).toList = n := by
  rw [Nat.toString_eq_ofList_toDigits, String.toList_ofList,
    plainValue_digits fun _ => isDigit_of_mem_decimal, Nat.ofDigitChars_ten_toDigits]

namespace Decimal

/-- **A plain text denotes its decimal.** -/
theorem plainValue_positionalText (d : Decimal) :
    plainValue (positionalText false d).toList = d.toRat := by
  unfold positionalText
  split
  · rename_i hnonneg
    have hdigits : ∀ c ∈ Nat.toDigits 10 d.digits ++ List.replicate d.exponent.toNat '0',
        c.isDigit = true := by
      intro c hc
      rcases List.mem_append.1 hc with hc | hc
      · exact isDigit_of_mem_decimal hc
      · rw [List.eq_of_mem_replicate hc]
        rfl
    rw [if_neg (by decide), String.append_empty, String.toList_ofList, plainValue_digits hdigits,
      Nat.ofDigitChars_append, Nat.ofDigitChars_ten_toDigits, Nat.ofDigitChars_replicate_zero,
      toRat, ← Int.toNat_of_nonneg hnonneg, zpow_natCast]
    push_cast
    exact mul_comm _ _
  · -- Zeros are put in front, so that a digit stands before the point.
    rename_i hneg
    generalize hplaces : (-d.exponent).toNat = places
    dsimp only
    generalize hpadded : List.replicate (places + 1 - (Nat.toDigits 10 d.digits).length) '0' ++
      Nat.toDigits 10 d.digits = padded
    have hdigits : ∀ c ∈ padded, c.isDigit = true := by
      intro c hc
      exact isDigit_of_mem_padded (hpadded ▸ hc)
    have hlength : places ≤ padded.length := by
      rw [← hpadded, List.length_append, List.length_replicate]
      omega
    have hvalue : Nat.ofDigitChars 10 padded 0 = d.digits := by
      rw [← hpadded, Nat.ofDigitChars_append, Nat.ofDigitChars_replicate_zero, Nat.mul_zero,
        Nat.ofDigitChars_ten_toDigits]
    rw [String.toList_ofList, plainValue_point (fun c hc => hdigits c (List.mem_of_mem_take hc))
      (fun c hc => hdigits c (List.mem_of_mem_drop hc)), List.take_append_drop, hvalue,
      List.length_drop, show padded.length - (padded.length - places) = places by omega, toRat,
      zpow_ten, hplaces, show d.exponent.toNat = 0 by omega, pow_zero, mul_one_div]

/-! ## Doubles -/

open Binary64

/-- The text of a double after its sign. -/
def body (f : Float) : String :=
  if isFinite f then positionalText false (shortest .up f) else "inf"

theorem format_plain {f : Float} (hf : isNaN f = false) :
    Layout.plain.format f = signed (signBit f) (body f) := by
  rw [Layout.format, hf, signed, body]
  cases isFinite f <;> rfl

theorem unsigned_body (f : Float) : Unsigned (body f) := by
  unfold body
  split
  · exact (digitFirst_positionalText _ _).unsigned
  · exact (by decide : "inf".toList.head? ≠ some '-')

theorem isFinite_of_body {f : Float} (h : DigitFirst (body f)) : isFinite f = true := by
  by_contra hf
  obtain ⟨c, cs, hbody, hc⟩ := h
  rw [body, if_neg hf] at hbody
  cases hbody
  exact absurd hc (by decide)

theorem nearest_body {f : Float} (hf : isFinite f = true) :
    Nearest (magnitude f) (plainValue (body f).toList) := by
  rw [body, if_pos hf, plainValue_positionalText]
  exact nearest_shortest .up f

theorem magnitude_eq_of_body {f g : Float} (hf : isNaN f = false) (hg : isNaN g = false)
    (h : body f = body g) : magnitude f = magnitude g := by
  have hfinite : isFinite f = isFinite g := by
    rw [Bool.eq_iff_iff]
    constructor
    · intro hf
      refine isFinite_of_body (h ▸ ?_)
      rw [body, if_pos hf]
      exact digitFirst_positionalText _ _
    · intro hg
      refine isFinite_of_body (h.symm ▸ ?_)
      rw [body, if_pos hg]
      exact digitFirst_positionalText _ _
  cases hf' : isFinite f with
  | true =>
      have hnearest := nearest_body (hfinite ▸ hf')
      rw [← h] at hnearest
      exact (nearest_body hf').unique hnearest
  | false =>
      -- Both are infinite, and there is one infinite magnitude.
      rw [hf'] at hfinite
      simp only [isNaN, isFinite, decide_eq_false_iff_not, Nat.not_lt] at hf hg hf' hfinite
      have hg' : ¬magnitude g < 2047 <<< 52 := by simpa using hfinite.symm
      omega

/-- **Doubles with one plain text are one number.** -/
theorem scaled_eq_of_format {f g : Float} (hf : isNaN f = false) (hg : isNaN g = false)
    (h : Layout.plain.format f = Layout.plain.format g) : scaled f = scaled g := by
  rw [format_plain hf, format_plain hg] at h
  obtain ⟨hsign, hbody⟩ := signed_inj (unsigned_body f) (unsigned_body g) h
  rw [scaled_eq, scaled_eq, hsign, magnitude_eq_of_body hf hg hbody]

/-- **A double that is written like an integer** is the one that the integer is converted to. -/
theorem scaled_eq_of_toString {f : Float} {n : Int} (hf : isNaN f = false)
    (hn : n.natAbs < 2 ^ 64) (h : toString n = Layout.plain.format f) :
    scaled (ofInt n) = scaled f := by
  rw [format_plain hf, toString_int] at h
  obtain ⟨hsign, hbody⟩ := signed_inj (digitFirst_toString _).unsigned (unsigned_body f) h
  have hnearest := nearest_body (isFinite_of_body (hbody ▸ digitFirst_toString _))
  rw [← hbody, plainValue_toString] at hnearest
  rw [scaled_eq, scaled_eq, signBit_ofInt hn, magnitude_ofInt hn, hsign,
    (nearest_bitsOfNat _).unique hnearest]

/-! ## Whole doubles -/

theorem toDigits_mul_pow {n : Nat} (hn : 0 < n) : ∀ k : Nat,
    Nat.toDigits 10 n ++ List.replicate k '0' = Nat.toDigits 10 (n * 10 ^ k)
  | 0 => by simp
  | k + 1 => by
    have hpos : 0 < n * 10 ^ k := Nat.mul_pos hn (Nat.pow_pos (by decide))
    have hlast := Nat.toDigits_append_toDigits (b := 10) (n := n * 10 ^ k) (d := 0) (by decide)
      hpos (by decide)
    rw [List.replicate_succ', ← List.append_assoc, toDigits_mul_pow hn k, Nat.pow_succ,
      ← Nat.mul_assoc, Nat.mul_comm _ 10]
    exact hlast

/-- A whole decimal that is not zero is written like the number. -/
theorem positionalText_of_nonneg {d : Decimal} (he : 0 ≤ d.exponent) (hd : 0 < d.digits) :
    positionalText false d = toString (d.digits * 10 ^ d.exponent.toNat) := by
  rw [positionalText, if_pos he, if_neg (by decide), String.append_empty,
    toDigits_mul_pow hd, Nat.toString_eq_ofList_toDigits]

/-- The digits of a number below 2^53 end before the power of ten of the units is passed. -/
theorem leadingExponent_natCast {n den : Nat} (hn : 0 < n) (hlt : n < 2 ^ 53) (hden : 0 < den) :
    ∃ t : Nat, t < 17 ∧ leadingExponent (n * den) den = t := by
  have hle : den ≤ n * den := Nat.le_mul_of_pos_left den hn
  have hpos : 0 < (Nat.toDigits 10 n).length := Nat.length_toDigits_pos
  have hlength : (Nat.toDigits 10 n).length ≤ 16 :=
    (Nat.length_toDigits_le_iff (by decide) (by decide)).2 (hlt.trans (by decide))
  refine ⟨(Nat.toDigits 10 n).length - 1, by omega, ?_⟩
  rw [leadingExponent, if_pos hle, Nat.mul_div_cancel n hden]
  omega

/-- The shortest decimal of a whole double below 2^53 is the number. -/
theorem shortest_of_magnitude {f : Float} {n : Nat} (hn : 0 < n) (hlt : n < 2 ^ 53)
    (hf : magnitude f = bitsOfNat n) : 0 ≤ (shortest .up f).exponent ∧
      (shortest .up f).digits * 10 ^ (shortest .up f).exponent.toNat = n := by
  have hpoint := position_bitsOfNat_of_lt hlt
  have hzero : magnitude f ≠ 0 := by
    intro hzero
    rw [← hf, hzero, position_zero] at hpoint
    exact absurd hpoint (Nat.mul_pos hn fine_pos).ne
  have hvalue : (Interval.ofFloat f).value = n * (Interval.ofFloat f).denominator := by
    rw [Interval.value_ofFloat, Interval.denominator_ofFloat, hf, Nat.mul_left_comm, ← hpoint]
    omega
  obtain ⟨t, ht, hleading⟩ := leadingExponent_natCast hn hlt
    (Interval.proper_ofFloat hzero).denominator
  -- In units of one, the number itself lies in its interval.
  have hmem : ((Interval.ofFloat f).rescale (leadingExponent (Interval.ofFloat f).value
      (Interval.ofFloat f).denominator - t)).Mem n := by
    rw [hvalue, hleading, Int.sub_self, Interval.mem_rescale, zpow_zero, mul_one,
      Interval.mem_ofFloat hzero, hf]
    exact nearest_bitsOfNat n
  obtain ⟨hexponent, hnearest⟩ := shortest_spec hzero .up ht hmem
  rw [hvalue, hleading, Int.sub_self] at hexponent
  have hrat : (shortest .up f).toRat =
      ((shortest .up f).digits * 10 ^ (shortest .up f).exponent.toNat : Nat) := by
    rw [toRat, ← Int.toNat_of_nonneg hexponent, zpow_natCast]
    push_cast
    rfl
  rw [hrat] at hnearest
  exact ⟨hexponent, eq_of_bitsOfNat_eq hlt (((nearest_bitsOfNat _).unique hnearest).trans hf)⟩

/-- **A whole double below 2^53 is written like the integer.** -/
theorem body_of_magnitude {f : Float} {n : Nat} (hn : 0 < n) (hlt : n < 2 ^ 53)
    (hf : magnitude f = bitsOfNat n) : body f = toString n := by
  have hfinite : isFinite f = true := by
    rw [isFinite, hf]
    exact decide_eq_true (bitsOfNat_lt (hlt.trans (by decide)))
  obtain ⟨hexponent, hwhole⟩ := shortest_of_magnitude hn hlt hf
  have hdigits : 0 < (shortest .up f).digits := by
    rw [Nat.pos_iff_ne_zero]
    intro hz
    rw [hz, Nat.zero_mul] at hwhole
    omega
  rw [body, if_pos hfinite, positionalText_of_nonneg hexponent hdigits, hwhole]

theorem format_of_scaled {f : Float} {n : Int} (hn : n ≠ 0) (hlt : n.natAbs < 2 ^ 53)
    (h : scaled f = n * unit) : Layout.plain.format f = toString n := by
  have hbits : n.natAbs < 2 ^ 64 := hlt.trans (by decide)
  have hofInt : scaled f = scaled (ofInt n) := by rw [scaled_ofInt_of_lt hlt, h]
  rcases eq_or_zero_of_scaled_eq hofInt with rfl | ⟨hzero, -⟩
  · rw [format_plain (isNaN_eq_false_of_isFinite (isFinite_ofInt hbits)), toString_int,
      signBit_ofInt hbits, body_of_magnitude (Int.natAbs_pos.2 hn) hlt (magnitude_ofInt hbits)]
  · rw [scaled_eq_zero.2 hzero] at h
    exact absurd h.symm (Int.mul_ne_zero hn unit_ne_zero)

end Decimal

end DocStore
