import DocStore.Number.Decimal
import DocStore.Proofs.Number.Rounding

/-!
# The shortest digits read back

`Decimal.shortest` searches ever finer powers of ten for one with a multiple in the interval of the
numbers that round to a double. Seventeen digits are enough to find one
(`Interval.exists_mem_rescale`), and what is found lies in the interval, so it is rounded to the
double again (`nearest_shortest`).
-/

set_option autoImplicit false

namespace DocStore.Decimal

open Binary64

/-- The number that a decimal stands for. -/
def toRat (d : Decimal) : ℚ := d.digits * 10 ^ d.exponent

/-- A power of ten is the quotient of the two that scale an interval. -/
theorem zpow_ten (e : Int) : (10 : ℚ) ^ e = 10 ^ e.toNat / 10 ^ (-e).toNat := by
  rw [← zpow_natCast, ← zpow_natCast, ← zpow_sub₀ (by norm_num), Int.toNat_sub_toNat_neg]

/-! ## Whole numbers in an interval -/

namespace Interval

/-- An interval around its value. -/
structure Proper (i : Interval) : Prop where
  low : i.low < i.value
  high : i.value < i.high
  denominator : 0 < i.denominator

/-- The number lies in the interval. -/
@[mk_iff]
structure Mem (i : Interval) (x : ℚ) : Prop where
  low : (i.low : ℚ) ≤ x * i.denominator
  high : x * i.denominator ≤ i.high
  inside : i.closed = false → (i.low : ℚ) < x * i.denominator ∧ x * i.denominator < i.high

theorem mem_natCast {i : Interval} {n : Nat} : i.Mem n ↔
    i.low ≤ n * i.denominator ∧ n * i.denominator ≤ i.high ∧
      (i.closed = false → i.low < n * i.denominator ∧ n * i.denominator < i.high) := by
  rw [mem_iff]
  norm_cast

/-- Whether the quotient reaches the interval. -/
def reachesDown (i : Interval) : Bool :=
  i.value % i.denominator == 0 ||
    if i.closed then i.low ≤ i.value / i.denominator * i.denominator
    else i.low < i.value / i.denominator * i.denominator

/-- Whether the number after the quotient is still in the interval. -/
def reachesUp (i : Interval) : Bool :=
  if i.closed then (i.value / i.denominator + 1) * i.denominator ≤ i.high
  else (i.value / i.denominator + 1) * i.denominator < i.high

theorem mem_quotient_iff {i : Interval} (h : i.Proper) :
    i.Mem ((i.value / i.denominator : Nat) : ℚ) ↔ i.reachesDown = true := by
  have hdiv : i.value / i.denominator * i.denominator + i.value % i.denominator = i.value :=
    Nat.div_add_mod' _ _
  have hlow := h.low
  have hhigh := h.high
  rw [mem_natCast, reachesDown]
  generalize i.value / i.denominator * i.denominator = m at *
  generalize i.value % i.denominator = r at *
  cases i.closed <;> simp <;> omega

theorem mem_succ_quotient_iff {i : Interval} (h : i.Proper) :
    i.Mem ((i.value / i.denominator + 1 : Nat) : ℚ) ↔ i.reachesUp = true := by
  have hlt : i.value < (i.value / i.denominator + 1) * i.denominator := by
    rw [Nat.succ_mul]
    exact Nat.lt_div_mul_add h.denominator
  have hlow := h.low
  have hhigh := h.high
  rw [mem_natCast, reachesUp]
  generalize (i.value / i.denominator + 1) * i.denominator = m at *
  cases i.closed <;> simp <;> omega

/-- What is found is the quotient or the number after it. -/
theorem whole?_eq (i : Interval) (tie : Tie) : ∃ nearer,
    (nearer = i.value / i.denominator ∨ nearer = i.value / i.denominator + 1) ∧
      i.whole? tie = match i.reachesDown, i.reachesUp with
        | true, true => some nearer
        | true, false => some (i.value / i.denominator)
        | false, true => some (i.value / i.denominator + 1)
        | false, false => none := by
  refine ⟨_, ?_, rfl⟩
  generalize i.value / i.denominator = q
  cases tie <;> dsimp only <;> split_ifs <;> omega

/-- **What is found lies in the interval.** -/
theorem mem_of_whole? {i : Interval} (h : i.Proper) {tie : Tie} {n : Nat}
    (hn : i.whole? tie = some n) : i.Mem n := by
  obtain ⟨nearer, hnearer, heq⟩ := i.whole?_eq tie
  rw [heq] at hn
  have hdown := mem_quotient_iff h
  have hup := mem_succ_quotient_iff h
  cases hd : i.reachesDown <;> cases hu : i.reachesUp <;> simp only [hd, hu] at hn
  · cases hn
  · cases hn
    exact hup.2 hu
  · cases hn
    exact hdown.2 hd
  · cases hn
    rcases hnearer with rfl | rfl
    · exact hdown.2 hd
    · exact hup.2 hu

/-- **Something is found** if there is a whole number in the interval. -/
theorem exists_whole? {i : Interval} (h : i.Proper) {m : Nat} (hm : i.Mem m) (tie : Tie) :
    ∃ n, i.whole? tie = some n := by
  obtain ⟨nearer, -, heq⟩ := i.whole?_eq tie
  have hreaches : i.reachesDown = true ∨ i.reachesUp = true := by
    obtain ⟨hlow, hhigh, hinside⟩ := mem_natCast.1 hm
    have hlow' := h.low
    have hhigh' := h.high
    -- What is tried lies between the value and the number that is known to be in the interval.
    rcases Nat.lt_or_ge (i.value / i.denominator) m with hgt | hle
    · right
      have hmul : (i.value / i.denominator + 1) * i.denominator ≤ m * i.denominator :=
        Nat.mul_le_mul_right _ hgt
      have hself : i.value < (i.value / i.denominator + 1) * i.denominator := by
        rw [Nat.succ_mul]
        exact Nat.lt_div_mul_add h.denominator
      rw [← mem_succ_quotient_iff h, mem_natCast]
      exact ⟨by omega, by omega, fun hc => ⟨by omega, by have := (hinside hc).2; omega⟩⟩
    · left
      have hmul := Nat.mul_le_mul_right i.denominator hle
      have hself : i.value / i.denominator * i.denominator ≤ i.value := Nat.div_mul_le_self _ _
      rw [← mem_quotient_iff h, mem_natCast]
      exact ⟨by omega, by omega, fun hc => ⟨by have := (hinside hc).1; omega, by omega⟩⟩
  rw [heq]
  rcases hreaches with hd | hu
  · rw [hd]
    cases i.reachesUp <;> exact ⟨_, rfl⟩
  · rw [hu]
    cases i.reachesDown <;> exact ⟨_, rfl⟩

/-! ## Other units -/

theorem Proper.rescale {i : Interval} (h : i.Proper) (e : Int) : (i.rescale e).Proper where
  low := Nat.mul_lt_mul_of_pos_right h.low (Nat.pow_pos (by decide))
  high := Nat.mul_lt_mul_of_pos_right h.high (Nat.pow_pos (by decide))
  denominator := Nat.mul_pos h.denominator (Nat.pow_pos (by decide))

/-- An interval in units of a power of ten holds the numbers that the interval itself holds. -/
theorem mem_rescale {i : Interval} {e : Int} {x : ℚ} :
    (i.rescale e).Mem x ↔ i.Mem (x * 10 ^ e) := by
  have hup : (0 : ℚ) < 10 ^ (-e).toNat := by positivity
  have hscale : x * 10 ^ e * i.denominator =
      x * (i.denominator * 10 ^ e.toNat) / 10 ^ (-e).toNat := by
    rw [zpow_ten]
    ring
  have hlow : ((i.rescale e).low : ℚ) = i.low * 10 ^ (-e).toNat := by
    simp only [rescale, Nat.pow_eq]
    push_cast
    rfl
  have hhigh : ((i.rescale e).high : ℚ) = i.high * 10 ^ (-e).toNat := by
    simp only [rescale, Nat.pow_eq]
    push_cast
    rfl
  have hden : ((i.rescale e).denominator : ℚ) = i.denominator * 10 ^ e.toNat := by
    simp only [rescale, Nat.pow_eq]
    push_cast
    rfl
  have hclosed : (i.rescale e).closed = i.closed := rfl
  rw [mem_iff, mem_iff, hlow, hhigh, hden, hclosed, hscale, le_div_iff₀ hup, div_le_iff₀ hup,
    lt_div_iff₀ hup, div_lt_iff₀ hup]

/-! ## The interval of a double -/

theorem step_pred_le (k : Nat) : step (k - 1) ≤ step k := by
  have hdiv := Nat.div_le_div_right (c := 2 ^ 52) (Nat.sub_le k 1)
  exact Nat.pow_le_pow_right (by decide) (by omega)

theorem position_lt (k : Nat) : position k < 2 ^ 53 * step k := by
  have hlt : k % 2 ^ 52 < 2 ^ 52 := Nat.mod_lt _ (by decide)
  rw [position, step]
  split
  · rename_i h
    rw [h]
    omega
  · exact Nat.mul_lt_mul_of_pos_right (by omega) (Nat.two_pow_pos _)

theorem value_ofFloat (f : Float) : (ofFloat f).value = 4 * position (magnitude f) := by
  have hpoint := significand_shiftLeft f
  rw [Nat.shiftLeft_eq] at hpoint
  simp only [ofFloat, Nat.shiftLeft_eq, Nat.one_mul]
  rw [Nat.mul_assoc, hpoint]

theorem shift_eq (f : Float) : 1 <<< shift f = step (magnitude f) := by
  rw [Nat.shiftLeft_eq, Nat.one_mul, shift, Binary64.exponent, Nat.shiftRight_eq_div_pow, step]

theorem high_ofFloat (f : Float) :
    (ofFloat f).high = 2 * (position (magnitude f) + position (magnitude f + 1)) := by
  have hvalue := value_ofFloat f
  have hhigh : (ofFloat f).high = (ofFloat f).value + 2 * (1 <<< shift f) := rfl
  rw [hhigh, hvalue, shift_eq, position_succ]
  omega

theorem low_ofFloat {f : Float} (hf : magnitude f ≠ 0) :
    (ofFloat f).low = 2 * (position (magnitude f - 1) + position (magnitude f)) := by
  have hvalue := value_ofFloat f
  have hlow : (ofFloat f).low = (ofFloat f).value -
      if fraction f = 0 ∧ 1 < Binary64.exponent f then 1 <<< shift f else 2 * (1 <<< shift f) := rfl
  rw [hlow, hvalue, shift_eq]
  have hexponent : Binary64.exponent f = magnitude f / 2 ^ 52 := Nat.shiftRight_eq_div_pow _ _
  have hfraction : fraction f = magnitude f % 2 ^ 52 := rfl
  rw [hexponent, hfraction]
  have hpred := position_eq_pred hf
  -- The first double of an exponent is closer to the one below it.
  have hbelow : (if magnitude f % 2 ^ 52 = 0 ∧ 1 < magnitude f / 2 ^ 52 then step (magnitude f)
      else 2 * step (magnitude f)) = 2 * step (magnitude f - 1) := by
    simp only [step]
    generalize magnitude f = k at *
    split
    · rename_i h
      rw [show k / 2 ^ 52 - 1 = (k - 1) / 2 ^ 52 - 1 + 1 by omega, Nat.pow_succ, Nat.mul_comm]
    · rename_i h
      rw [show k / 2 ^ 52 - 1 = (k - 1) / 2 ^ 52 - 1 by omega]
  rw [hbelow, hpred]
  omega

theorem denominator_ofFloat (f : Float) : (ofFloat f).denominator = 2 * fine := by
  have hden : (ofFloat f).denominator = 1 <<< (depth + 2) := by
    rw [depth_eq]
    rfl
  rw [hden, Nat.one_shiftLeft, fine_eq, Nat.pow_add]
  generalize 2 ^ depth = g
  omega

theorem closed_ofFloat (f : Float) : (ofFloat f).closed = (magnitude f % 2 == 0) := by
  have hclosed : (ofFloat f).closed = (significand f % 2 == 0) := rfl
  have hfraction : fraction f = magnitude f % 2 ^ 52 := rfl
  have hparity : significand f % 2 = magnitude f % 2 := by
    rw [significand, hfraction, show 1 <<< 52 = 2 ^ 52 from rfl]
    split <;> omega
  rw [hclosed, hparity]

theorem proper_ofFloat {f : Float} (hf : magnitude f ≠ 0) : (ofFloat f).Proper where
  low := by
    have hpred := position_eq_pred hf
    have hstep := step_pos (magnitude f - 1)
    rw [low_ofFloat hf, value_ofFloat]
    omega
  high := by
    have hstep := step_pos (magnitude f)
    rw [high_ofFloat, value_ofFloat, position_succ]
    omega
  denominator := by
    rw [denominator_ofFloat]
    exact Nat.mul_pos (by decide) fine_pos

/-- **The interval of a double** holds the numbers that round to its magnitude. -/
theorem mem_ofFloat {f : Float} (hf : magnitude f ≠ 0) {x : ℚ} :
    (ofFloat f).Mem x ↔ Nearest (magnitude f) x := by
  have hden : x * ((ofFloat f).denominator : ℚ) = 2 * (x * fine) := by
    rw [denominator_ofFloat]
    push_cast
    ring
  have hlow : ((ofFloat f).low : ℚ) =
      2 * (position (magnitude f - 1) + position (magnitude f)) := by
    rw [low_ofFloat hf]
    push_cast
    rfl
  have hhigh : ((ofFloat f).high : ℚ) =
      2 * (position (magnitude f) + position (magnitude f + 1)) := by
    rw [high_ofFloat]
    push_cast
    rfl
  have hclosed : (ofFloat f).closed = false ↔ magnitude f % 2 = 1 := by
    rw [closed_ofFloat, beq_eq_false_iff_ne]
    omega
  constructor
  · rintro ⟨h₁, h₂, h₃⟩
    rw [hden, hlow] at h₁
    rw [hden, hhigh] at h₂
    rw [hden, hlow, hhigh, hclosed] at h₃
    exact ⟨by linarith, by linarith, fun h => ⟨by linarith [(h₃ h).1], by linarith [(h₃ h).2]⟩⟩
  · rintro ⟨h₁, h₂, h₃⟩
    refine ⟨by rw [hden, hlow]; linarith, by rw [hden, hhigh]; linarith, fun h => ?_⟩
    obtain ⟨h₄, h₅⟩ := h₃ (hclosed.1 h)
    exact ⟨by rw [hden, hlow]; linarith, by rw [hden, hhigh]; linarith⟩

/-- **Seventeen digits are enough**: units of 10^(-16) of the leading digit leave a whole number
in the interval of a double. -/
theorem exists_mem_rescale {f : Float} (hf : magnitude f ≠ 0) {e : Int}
    (he : (10 : ℚ) ^ (e + 16) * (ofFloat f).denominator ≤ (ofFloat f).value) :
    ∃ n : Nat, ((ofFloat f).rescale e).Mem n := by
  have hpoint := position_lt (magnitude f - 1)
  have hstep := step_pred_le (magnitude f)
  have hsucc := position_succ (magnitude f)
  have hpred := position_eq_pred hf
  -- The interval is wider than the value divided by 10^16, so wider than one unit.
  have hwidth : (ofFloat f).value + 10 ^ 16 * (ofFloat f).low < 10 ^ 16 * (ofFloat f).high := by
    rw [value_ofFloat, low_ofFloat hf, high_ofFloat]
    omega
  have hwidth : ((ofFloat f).value : ℚ) + 10 ^ 16 * (ofFloat f).low <
      10 ^ 16 * (ofFloat f).high := by exact_mod_cast hwidth
  have hden : (0 : ℚ) < (ofFloat f).denominator := Nat.cast_pos.2 (proper_ofFloat hf).denominator
  have hten : (0 : ℚ) < 10 ^ e := zpow_pos (by norm_num) e
  have hlow : (0 : ℚ) ≤ (ofFloat f).low := Nat.cast_nonneg _
  rw [zpow_add₀ (by norm_num), show (10 : ℚ) ^ (16 : Int) = 10 ^ 16 from rfl] at he
  have hunit : (0 : ℚ) < 10 ^ e * (ofFloat f).denominator := mul_pos hten hden
  have hfloor := Nat.floor_le (div_nonneg hlow hunit.le)
  have hceil := Nat.lt_floor_add_one (((ofFloat f).low : ℚ) / (10 ^ e * (ofFloat f).denominator))
  rw [le_div_iff₀ hunit] at hfloor
  rw [div_lt_iff₀ hunit] at hceil
  -- The first unit above the lower end.
  refine ⟨⌊((ofFloat f).low : ℚ) / (10 ^ e * (ofFloat f).denominator)⌋₊ + 1, mem_rescale.2 ?_⟩
  generalize ⌊((ofFloat f).low : ℚ) / (10 ^ e * (ofFloat f).denominator)⌋₊ = n at *
  have hscale : ((n + 1 : Nat) : ℚ) * 10 ^ e * (ofFloat f).denominator =
      (n + 1) * (10 ^ e * (ofFloat f).denominator) := by
    push_cast
    ring
  have habove : ((ofFloat f).low : ℚ) < ((n + 1 : Nat) : ℚ) * 10 ^ e * (ofFloat f).denominator := by
    rw [hscale]
    exact hceil
  have hbelow : ((n + 1 : Nat) : ℚ) * 10 ^ e * (ofFloat f).denominator < (ofFloat f).high := by
    rw [hscale]
    linarith
  exact ⟨habove.le, hbelow.le, fun _ => ⟨habove, hbelow⟩⟩

end Interval

/-! ## The leading digit -/

theorem le_scaleUp {num den : Nat} : ∀ {fuel k : Nat}, den ≤ num * 10 ^ (k + fuel) →
    den ≤ num * 10 ^ scaleUp num den fuel k
  | 0, _, h => h
  | fuel + 1, k, h => by
    rw [scaleUp]
    split
    · assumption
    · exact le_scaleUp (by rwa [Nat.add_assoc, Nat.add_comm 1])

/-- The power of ten of the leading digit is at most the quotient. -/
theorem zpow_leadingExponent_le {num den : Nat} (hden : 0 < den) (h : den ≤ num * 10 ^ 400) :
    (10 : ℚ) ^ leadingExponent num den * den ≤ num := by
  rw [leadingExponent]
  split
  · rename_i hle
    have hquotient : num / den ≠ 0 := Nat.div_ne_zero_iff.2 ⟨hden.ne', hle⟩
    generalize hl : (Nat.toDigits 10 (num / den)).length = l
    have hlength : 10 ^ (l - 1) ≤ num / den := by
      by_contra hlt
      rw [Nat.not_le] at hlt
      rcases Nat.eq_zero_or_pos (l - 1) with hzero | hpos
      · rw [hzero, Nat.pow_zero] at hlt
        exact hquotient (Nat.lt_one_iff.1 hlt)
      · have hle := (Nat.length_toDigits_le_iff (by decide) hpos).2 hlt
        omega
    have hpos : 0 < l := hl ▸ Nat.length_toDigits_pos
    have hmul : 10 ^ (l - 1) * den ≤ num :=
      (Nat.mul_le_mul_right den hlength).trans (Nat.div_mul_le_self num den)
    rw [show (l : Int) - 1 = (l - 1 : Nat) by omega, zpow_natCast]
    exact_mod_cast hmul
  · have hup : den ≤ num * 10 ^ scaleUp num den 400 0 := le_scaleUp (by rwa [Nat.zero_add])
    have hten : (0 : ℚ) < 10 ^ scaleUp num den 400 0 := by positivity
    rw [zpow_neg, zpow_natCast, inv_mul_le_iff₀ hten, mul_comm]
    exact_mod_cast hup

/-! ## The search -/

/-- The search ends at the latest at a power of ten at which something is found. -/
theorem exists_search {i : Interval} {tie : Tie} {leading : Int} :
    ∀ {count tried t : Nat}, t < count →
      (∃ n, (i.rescale (leading - (tried + t : Nat))).whole? tie = some n) →
      leading - (tried + t : Nat) ≤ (search i tie leading count tried).exponent ∧
        (i.rescale (search i tie leading count tried).exponent).whole? tie =
          some (search i tie leading count tried).digits
  | 0, _, _, h, _ => absurd h (Nat.not_lt_zero _)
  | count + 1, tried, t, h, hsome => by
    rw [search]
    split
    · rename_i n hn
      exact ⟨by dsimp only; omega, hn⟩
    · rename_i hnone
      cases t with
      | zero =>
          obtain ⟨n, hn⟩ := hsome
          rw [Nat.add_zero, hnone] at hn
          cases hn
      | succ t =>
          rw [← Nat.add_assoc, Nat.add_right_comm] at hsome ⊢
          exact exists_search (by omega) hsome

/-! ## Trailing zeros -/

theorem toRat_trim : ∀ (d : Decimal) (fuel : Nat), (trim d fuel).toRat = d.toRat
  | _, 0 => rfl
  | d, fuel + 1 => by
    rw [trim]
    split
    · rename_i hzero
      rw [toRat_trim _ fuel, toRat, toRat, zpow_add_one₀ (by norm_num)]
      have hdigits : (d.digits : ℚ) = (d.digits / 10 : Nat) * 10 := by
        exact_mod_cast (Nat.div_mul_cancel (Nat.dvd_of_mod_eq_zero hzero)).symm
      rw [hdigits]
      dsimp only
      ring
    · rfl

theorem le_exponent_trim : ∀ (d : Decimal) (fuel : Nat), d.exponent ≤ (trim d fuel).exponent
  | _, 0 => le_rfl
  | d, fuel + 1 => by
    rw [trim]
    split
    · have hrest := le_exponent_trim { digits := d.digits / 10, exponent := d.exponent + 1 } fuel
      exact le_trans (by dsimp only; omega) hrest
    · exact le_rfl

/-! ## The shortest decimal -/

theorem two_pow_le_ten_pow {a b : Nat} (h : a ≤ 3 * b) : 2 ^ a ≤ 10 ^ b := calc
  2 ^ a ≤ 2 ^ (3 * b) := Nat.pow_le_pow_right (by decide) h
  _ = 8 ^ b := Nat.pow_mul 2 3 b
  _ ≤ 10 ^ b := Nat.pow_le_pow_left (by decide) b

theorem zpow_leadingExponent_ofFloat_le {f : Float} (hf : magnitude f ≠ 0) :
    (10 : ℚ) ^ leadingExponent (Interval.ofFloat f).value (Interval.ofFloat f).denominator *
      (Interval.ofFloat f).denominator ≤ (Interval.ofFloat f).value := by
  refine zpow_leadingExponent_le (Interval.proper_ofFloat hf).denominator ?_
  have hpoint : 1 ≤ position (magnitude f) := le_trans (Nat.pos_of_ne_zero hf) (le_position _)
  have hgrain : 2 ^ depth ≤ 10 ^ 400 := two_pow_le_ten_pow (by rw [depth_eq]; decide)
  rw [Interval.denominator_ofFloat, Interval.value_ofFloat, fine_eq]
  generalize 2 ^ depth = g at *
  generalize 10 ^ 400 = p at *
  nlinarith

/-- What the search for the shortest decimal finds, if something is found in a unit. -/
theorem shortest_spec {f : Float} (hf : magnitude f ≠ 0) (tie : Tie) {t : Nat} (ht : t < 17)
    {m : Nat} (hm : ((Interval.ofFloat f).rescale
      (leadingExponent (Interval.ofFloat f).value (Interval.ofFloat f).denominator - t)).Mem m) :
    leadingExponent (Interval.ofFloat f).value (Interval.ofFloat f).denominator - t ≤
        (shortest tie f).exponent ∧
      Nearest (magnitude f) (shortest tie f).toRat := by
  have hproper := Interval.proper_ofFloat hf
  have hfound : ∃ n, ((Interval.ofFloat f).rescale
      (leadingExponent (Interval.ofFloat f).value (Interval.ofFloat f).denominator -
        (0 + t : Nat))).whole? tie = some n := by
    rw [Nat.zero_add]
    exact Interval.exists_whole? (hproper.rescale _) hm tie
  obtain ⟨hexponent, hwhole⟩ := exists_search ht hfound
  rw [Nat.zero_add] at hexponent
  rw [shortest, if_neg hf]
  refine ⟨hexponent.trans (le_exponent_trim _ _), ?_⟩
  rw [toRat_trim]
  exact (Interval.mem_ofFloat hf).1
    (Interval.mem_rescale.1 (Interval.mem_of_whole? (hproper.rescale _) hwhole))

/-- **The shortest decimal is rounded to the double.** -/
theorem nearest_shortest (tie : Tie) (f : Float) :
    Nearest (magnitude f) (shortest tie f).toRat := by
  by_cases hf : magnitude f = 0
  · have hzero : (shortest tie f).toRat = 0 := by
      rw [shortest, if_pos hf, toRat]
      simp
    rw [hf, hzero]
    exact nearest_zero
  · obtain ⟨n, hn⟩ := Interval.exists_mem_rescale hf (e := leadingExponent
      (Interval.ofFloat f).value (Interval.ofFloat f).denominator - (16 : Nat)) (by
        rw [show ∀ l : Int, l - (16 : Nat) + 16 = l by intro l; omega]
        exact zpow_leadingExponent_ofFloat_le hf)
    exact (shortest_spec hf tie (by decide) hn).2

end DocStore.Decimal
