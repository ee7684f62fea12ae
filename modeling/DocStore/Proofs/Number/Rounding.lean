import DocStore.Proofs.Number.Binary64

/-!
# Rounding

`Nearest k x` says that a number `x` is rounded to the magnitude `k`: it lies between the middles of
`k` and its neighbours, and on a middle only if `k` is even. Rounding is monotone (`Nearest.le`), so
that no number is rounded to two magnitudes, and integers are converted by rounding them
(`nearest_bitsOfNat`). Doubles are rounded to the nearest integer (`nearestInteger_iff`).
-/

set_option autoImplicit false

namespace DocStore.Binary64

/-! ## Nearest points -/

/-- The least doubles above zero are this negative power of two. -/
@[irreducible] def depth : Nat := 1074

theorem depth_eq : depth = 1074 := by
  unfold depth
  rfl

/-- The number of half steps of the finest grid in one. -/
@[irreducible] def fine : Nat := 2 * 2 ^ depth

theorem fine_eq : fine = 2 * 2 ^ depth := by
  unfold fine
  rfl

theorem fine_pos : 0 < fine := by
  rw [fine_eq]
  exact Nat.mul_pos (by decide) (Nat.two_pow_pos depth)

/-- The magnitude is the one that a number is rounded to, a tie going to the even magnitude. -/
structure Nearest (k : Nat) (x : ℚ) : Prop where
  lower : (position (k - 1) + position k : ℚ) ≤ x * fine
  upper : x * fine ≤ position k + position (k + 1)
  inside : k % 2 = 1 →
    (position (k - 1) + position k : ℚ) < x * fine ∧ x * fine < position k + position (k + 1)

/-- **Rounding is monotone.** -/
theorem Nearest.le {j k : Nat} {x y : ℚ} (hj : Nearest j x) (hk : Nearest k y) (hxy : x ≤ y) :
    j ≤ k := by
  by_contra hlt
  rw [Nat.not_le] at hlt
  have hscale : x * fine ≤ y * fine := mul_le_mul_of_nonneg_right hxy (Nat.cast_nonneg _)
  have hpred : (position k : ℚ) ≤ position (j - 1) :=
    Nat.cast_le.2 (position_strictMono.monotone (by omega))
  have hself : (position (k + 1) : ℚ) ≤ position j :=
    Nat.cast_le.2 (position_strictMono.monotone hlt)
  have hlower := hj.lower
  have hupper := hk.upper
  -- The greater magnitude would have to meet the lesser one in the middle between them.
  have hmeet : position k = position (j - 1) :=
    Nat.cast_injective (R := ℚ) (by linarith)
  have hnext : k = j - 1 := position_strictMono.injective hmeet
  by_cases hodd : j % 2 = 1
  · have := (hj.inside hodd).1
    linarith
  · have := (hk.inside (by omega)).2
    linarith

theorem Nearest.unique {j k : Nat} {x : ℚ} (hj : Nearest j x) (hk : Nearest k x) : j = k :=
  Nat.le_antisymm (hj.le hk le_rfl) (hk.le hj le_rfl)

theorem nearest_zero : Nearest 0 0 where
  lower := by simp [position_zero]
  upper := by
    rw [zero_mul]
    exact add_nonneg (Nat.cast_nonneg _) (Nat.cast_nonneg _)
  inside := fun h => by cases h

/-- A number between a point and the middle to the next one is rounded down. -/
theorem nearest_of_le_middle {k : Nat} {x : ℚ} (hlow : 2 * (position k : ℚ) ≤ x * fine)
    (hmiddle : x * fine ≤ position k + position (k + 1))
    (htie : x * fine = position k + position (k + 1) → k % 2 = 0) : Nearest k x := by
  have hpred : (position (k - 1) : ℚ) ≤ position k :=
    Nat.cast_le.2 (position_strictMono.monotone (Nat.sub_le k 1))
  refine ⟨by linarith, hmiddle, fun hodd => ⟨?_, ?_⟩⟩
  · have hstrict : (position (k - 1) : ℚ) < position k :=
      Nat.cast_lt.2 (position_strictMono (by omega))
    linarith
  · exact lt_of_le_of_ne hmiddle fun heq => by have := htie heq; omega

/-- A number between the middle and the next point is rounded up. -/
theorem nearest_of_middle_le {k : Nat} {x : ℚ} (hhigh : x * fine ≤ 2 * (position (k + 1) : ℚ))
    (hmiddle : (position k + position (k + 1) : ℚ) ≤ x * fine)
    (htie : x * fine = position k + position (k + 1) → k % 2 = 1) : Nearest (k + 1) x := by
  have hnext : (position (k + 1) : ℚ) < position (k + 1 + 1) :=
    Nat.cast_lt.2 (position_strictMono (Nat.lt_succ_self _))
  refine ⟨hmiddle, by linarith, fun hodd => ⟨?_, by linarith⟩⟩
  exact lt_of_le_of_ne hmiddle fun heq => by have := htie heq.symm; omega

/-- A point of the grid is rounded to itself. -/
theorem nearest_self (k : Nat) {x : ℚ} (h : x * fine = 2 * position k) : Nearest k x := by
  have hnext : (position k : ℚ) < position (k + 1) :=
    Nat.cast_lt.2 (position_strictMono (Nat.lt_succ_self k))
  exact nearest_of_le_middle h.ge (by linarith) fun heq => by linarith

/-! ## Natural numbers -/

/-- The point of an exponent and a significand, which may have reached the next exponent. -/
theorem position_of_significand (e : Nat) {sig : Nat} (hlow : 2 ^ 52 ≤ sig) (hhigh : sig ≤ 2 ^ 53) :
    position (e * 2 ^ 52 + sig) = sig * 2 ^ e := by
  by_cases hcarry : sig = 2 ^ 53
  · have hfields : e * 2 ^ 52 + sig = (e + 2) * 2 ^ 52 + 0 := by omega
    rw [hfields, position_of_fields _ (by decide), if_neg (by omega), hcarry,
      show e + 2 - 1 = e + 1 from rfl, Nat.pow_succ]
    ring
  · have hfields : e * 2 ^ 52 + sig = (e + 1) * 2 ^ 52 + (sig - 2 ^ 52) := by omega
    rw [hfields, position_of_fields _ (by omega), if_neg (by omega), Nat.add_sub_cancel,
      Nat.add_sub_of_le hlow]

/-- The significand that a number other than zero is given, before rounding. -/
theorem significand_bounds {n : Nat} (hn : n ≠ 0) :
    2 ^ 52 * 2 ^ (n.log2 - 52) ≤ n * 2 ^ (52 - n.log2) ∧
      n * 2 ^ (52 - n.log2) < 2 ^ 53 * 2 ^ (n.log2 - 52) := by
  have hlow : 2 ^ n.log2 ≤ n := Nat.log2_self_le hn
  have hhigh : n < 2 ^ (n.log2 + 1) := Nat.lt_log2_self
  rcases Nat.le_total n.log2 52 with hle | hle
  · obtain ⟨d, hd⟩ := Nat.exists_eq_add_of_le hle
    have hup : 52 - n.log2 = d := by omega
    have hdown : n.log2 - 52 = 0 := by omega
    rw [hup, hdown, Nat.pow_zero, Nat.mul_one, Nat.mul_one, hd, Nat.pow_add,
      show (53 : Nat) = n.log2 + 1 + d by omega, Nat.pow_add]
    exact ⟨Nat.mul_le_mul_right _ hlow, Nat.mul_lt_mul_of_pos_right hhigh (Nat.two_pow_pos d)⟩
  · have hup : 52 - n.log2 = 0 := by omega
    rw [hup, Nat.pow_zero, Nat.mul_one, ← Nat.pow_add, ← Nat.pow_add,
      show 52 + (n.log2 - 52) = n.log2 by omega, show 53 + (n.log2 - 52) = n.log2 + 1 by omega]
    exact ⟨hlow, hhigh⟩

/-- The bits of a number have its leading bit in the exponent, and a significand below it. -/
theorem exists_bitsOfNat {n : Nat} (hn : n ≠ 0) : ∃ sig, 2 ^ 52 ≤ sig ∧ sig ≤ 2 ^ 53 ∧
    bitsOfNat n = (n.log2 + 1022) * 2 ^ 52 + sig := by
  obtain ⟨hlow, hhigh⟩ := significand_bounds hn
  simp only [bitsOfNat, hn, if_false, Nat.shiftLeft_eq]
  refine ⟨_, ?_, ?_, rfl⟩
  -- A short number is shifted up exactly, a long one is cut and may be rounded up by one.
  all_goals split
  · rename_i hle
    rwa [show n.log2 - 52 = 0 by omega, Nat.pow_zero, Nat.mul_one] at hlow
  · rename_i hgt
    rw [show 52 - n.log2 = 0 by omega, Nat.pow_zero, Nat.mul_one] at hlow
    have hquotient : 2 ^ 52 ≤ n / 2 ^ (n.log2 - 52) :=
      (Nat.le_div_iff_mul_le (Nat.two_pow_pos _)).2 hlow
    simp only [shiftRounded, Nat.shiftRight_eq_div_pow]
    split_ifs <;> omega
  · rename_i hle
    rw [show n.log2 - 52 = 0 by omega, Nat.pow_zero, Nat.mul_one] at hhigh
    exact hhigh.le
  · rename_i hgt
    rw [show 52 - n.log2 = 0 by omega, Nat.pow_zero, Nat.mul_one] at hhigh
    have hquotient : n / 2 ^ (n.log2 - 52) < 2 ^ 53 :=
      (Nat.div_lt_iff_lt_mul (Nat.two_pow_pos _)).2 hhigh
    simp only [shiftRounded, Nat.shiftRight_eq_div_pow]
    split_ifs <;> omega

/-- A number that has no more bits than a significand is a point of the grid. -/
theorem position_bitsOfNat {n : Nat} (h : n.log2 ≤ 52) : 2 * position (bitsOfNat n) = n * fine := by
  by_cases hn : n = 0
  · simp [hn, bitsOfNat, position_zero]
  · obtain ⟨hlow, hhigh⟩ := significand_bounds hn
    rw [show n.log2 - 52 = 0 by omega, Nat.pow_zero, Nat.mul_one] at hlow hhigh
    have hbits : bitsOfNat n = (n.log2 + 1022) * 2 ^ 52 + n * 2 ^ (52 - n.log2) := by
      simp only [bitsOfNat, hn, if_false, h, if_true, Nat.shiftLeft_eq]
    rw [hbits, position_of_significand _ hlow hhigh.le, fine_eq, Nat.mul_assoc, ← Nat.pow_add,
      show 52 - n.log2 + (n.log2 + 1022) = depth by rw [depth_eq]; omega]
    exact Nat.mul_left_comm _ _ _

/-- Between two points that have the multiples `q` and `q + 1` of a width as their values, half the
width decides. -/
theorem nearest_of_quotient {base q r w : Nat} (hbase : base % 2 = 0) (hr : r < w)
    (hpoint : position (base + q) = q * (w * 2 ^ depth))
    (hnext : position (base + q + 1) = (q + 1) * (w * 2 ^ depth)) :
    Nearest (base + if 2 * r < w then q else if 2 * r = w then q + q % 2 else q + 1)
      ((q * w + r : Nat) : ℚ) := by
  have hcast : ((q * w + r : Nat) : ℚ) * fine = 2 * (q * w + r) * 2 ^ depth := by
    rw [fine_eq]
    push_cast
    ring
  have hgrain : (0 : ℚ) < 2 ^ depth := by positivity
  have hpoint : (position (base + q) : ℚ) = q * (w * 2 ^ depth) := by exact_mod_cast hpoint
  have hnext : (position (base + q + 1) : ℚ) = (q + 1) * (w * 2 ^ depth) := by
    exact_mod_cast hnext
  generalize (2 : ℚ) ^ depth = g at hcast hgrain hpoint hnext
  have hmiddle : (position (base + q) + position (base + q + 1) : ℚ) = (2 * q * w + w) * g := by
    rw [hpoint, hnext]
    ring
  have hr0 : (0 : ℚ) ≤ r * g := mul_nonneg (Nat.cast_nonneg r) hgrain.le
  -- Below, on and above the middle between the two points.
  rcases Nat.lt_trichotomy (2 * r) w with hlt | heq | hgt
  · have hltq : (2 * r : ℚ) * g < w * g :=
      mul_lt_mul_of_pos_right (by exact_mod_cast hlt) hgrain
    rw [if_pos hlt]
    refine nearest_of_le_middle ?_ ?_ fun htie => ?_
    · rw [hcast, hpoint]; linarith
    · rw [hcast, hmiddle]; linarith
    · rw [hcast, hmiddle] at htie; linarith
  · have heqq : (2 * r : ℚ) * g = w * g := by rw [← heq]; push_cast; ring
    rw [if_neg (by omega), if_pos heq]
    rcases Nat.mod_two_eq_zero_or_one q with heven | hodd
    · rw [heven]
      refine nearest_of_le_middle ?_ ?_ fun _ => by omega
      · rw [Nat.add_zero, hcast, hpoint]; linarith
      · rw [Nat.add_zero, hcast, hmiddle]; linarith
    · rw [hodd, ← Nat.add_assoc]
      refine nearest_of_middle_le ?_ ?_ fun _ => by omega
      · rw [hcast, hnext]; linarith
      · rw [hcast, hmiddle]; linarith
  · have hgtq : (w : ℚ) * g < 2 * r * g :=
      mul_lt_mul_of_pos_right (by exact_mod_cast hgt) hgrain
    have hrw : (r : ℚ) * g ≤ w * g :=
      mul_le_mul_of_nonneg_right (by exact_mod_cast hr.le) hgrain.le
    rw [if_neg (by omega), if_neg (by omega), ← Nat.add_assoc]
    refine nearest_of_middle_le ?_ ?_ fun htie => ?_
    · rw [hcast, hnext]; linarith
    · rw [hcast, hmiddle]; linarith
    · rw [hcast, hmiddle] at htie; linarith

theorem position_bitsOfNat_of_lt {n : Nat} (h : n < 2 ^ 53) :
    2 * position (bitsOfNat n) = n * fine := by
  refine position_bitsOfNat ?_
  by_cases hn : n = 0
  · rw [hn]
    decide
  · exact Nat.le_of_lt_succ ((Nat.log2_lt hn).2 h)

/-- **A natural number is converted to the double nearest to it.** -/
theorem nearest_bitsOfNat (n : Nat) : Nearest (bitsOfNat n) n := by
  rcases Nat.lt_or_ge 52 n.log2 with hlarge | hsmall
  · have hn : n ≠ 0 := by
      rintro rfl
      exact absurd hlarge (by decide)
    obtain ⟨s, hs⟩ := Nat.exists_eq_add_of_le hlarge.le
    obtain ⟨hlow, hhigh⟩ := significand_bounds hn
    rw [show 52 - n.log2 = 0 by omega, show n.log2 - 52 = s by omega, Nat.pow_zero,
      Nat.mul_one] at hlow hhigh
    -- The number lies between the points of the quotient and of its successor.
    generalize hq : n / 2 ^ s = q
    generalize hr : n % 2 ^ s = r
    have hsplit : n = q * 2 ^ s + r := by rw [← hq, ← hr, Nat.div_add_mod']
    have hq52 : 2 ^ 52 ≤ q := hq ▸ (Nat.le_div_iff_mul_le (Nat.two_pow_pos s)).2 hlow
    have hq53 : q < 2 ^ 53 := hq ▸ (Nat.div_lt_iff_lt_mul (Nat.two_pow_pos s)).2 hhigh
    have hrs : r < 2 ^ s := hr ▸ Nat.mod_lt _ (Nat.two_pow_pos s)
    have hbits : bitsOfNat n = (n.log2 + 1022) * 2 ^ 52 +
        if 2 * r < 2 ^ s then q else if 2 * r = 2 ^ s then q + q % 2 else q + 1 := by
      have hlog : ¬n.log2 ≤ 52 := by omega
      simp only [bitsOfNat, hn, if_false, hlog, shiftRounded, Nat.shiftLeft_eq,
        Nat.shiftRight_eq_div_pow, show n.log2 - 52 = s by omega, Nat.one_mul, hq, hr]
    have heven : (n.log2 + 1022) * 2 ^ 52 % 2 = 0 := by omega
    have hpow : 2 ^ (n.log2 + 1022) = 2 ^ s * 2 ^ depth := by
      rw [← Nat.pow_add, show n.log2 + 1022 = s + depth by rw [depth_eq]; omega]
    have hpoint : position ((n.log2 + 1022) * 2 ^ 52 + q) = q * (2 ^ s * 2 ^ depth) := by
      rw [position_of_significand _ hq52 hq53.le, hpow]
    have hnext : position ((n.log2 + 1022) * 2 ^ 52 + q + 1) = (q + 1) * (2 ^ s * 2 ^ depth) := by
      rw [Nat.add_assoc, position_of_significand _ (by omega) (by omega), hpow]
    have hnearest := nearest_of_quotient heven hrs hpoint hnext
    rwa [← hsplit, ← hbits] at hnearest
  · have hpoint : ((n * fine : Nat) : ℚ) = (2 * position (bitsOfNat n) : Nat) := by
      rw [position_bitsOfNat hsmall]
    rw [Nat.cast_mul, Nat.cast_mul] at hpoint
    exact nearest_self _ hpoint

theorem bitsOfNat_lt {n : Nat} (h : n < 2 ^ 64) : bitsOfNat n < 2047 * 2 ^ 52 := by
  by_cases hn : n = 0
  · rw [hn]
    decide
  · obtain ⟨sig, -, hsig, hbits⟩ := exists_bitsOfNat hn
    have hlog : n.log2 < 64 := (Nat.log2_lt hn).2 h
    omega

theorem bitsOfNat_mono {m n : Nat} (h : m ≤ n) : bitsOfNat m ≤ bitsOfNat n :=
  (nearest_bitsOfNat m).le (nearest_bitsOfNat n) (Nat.cast_le.2 h)

/-! ## Integers -/

/-- The doubles of integers are given by their bits. -/
theorem toNat_toBits_ofInt {n : Int} (h : n.natAbs < 2 ^ 64) :
    (ofInt n).toBits.toNat = (if n < 0 then 2 ^ 63 else 0) + bitsOfNat n.natAbs := by
  have hlt := bitsOfNat_lt h
  rw [ofInt]
  split
  · have hbits : (UInt64.ofNat ((1 <<< 63) + bitsOfNat n.natAbs)).toNat =
        2 ^ 63 + bitsOfNat n.natAbs := UInt64.toNat_ofNat_of_lt' (by
      change 2 ^ 63 + bitsOfNat n.natAbs < 2 ^ 64
      omega)
    rw [toBits_ofBits (by rw [hbits]; omega), hbits]
  · have hbits : (UInt64.ofNat (bitsOfNat n.natAbs)).toNat = bitsOfNat n.natAbs :=
      UInt64.toNat_ofNat_of_lt' (by
        change bitsOfNat n.natAbs < 2 ^ 64
        omega)
    rw [ofNat, toBits_ofBits (by rw [hbits]; omega), hbits, Nat.zero_add]

theorem magnitude_ofInt {n : Int} (h : n.natAbs < 2 ^ 64) :
    magnitude (ofInt n) = bitsOfNat n.natAbs := by
  have hlt := bitsOfNat_lt h
  have hmagnitude : magnitude (ofInt n) = (ofInt n).toBits.toNat % 2 ^ 63 := rfl
  rw [hmagnitude, toNat_toBits_ofInt h]
  split <;> omega

theorem signBit_ofInt {n : Int} (h : n.natAbs < 2 ^ 64) : signBit (ofInt n) = decide (n < 0) := by
  have hlt := bitsOfNat_lt h
  have hsign : signBit (ofInt n) = decide (2 ^ 63 ≤ (ofInt n).toBits.toNat) := rfl
  rw [hsign, toNat_toBits_ofInt h, decide_eq_decide]
  split <;> omega

theorem scaled_ofInt {n : Int} (h : n.natAbs < 2 ^ 64) :
    scaled (ofInt n) =
      if n < 0 then -(position (bitsOfNat n.natAbs) : Int) else position (bitsOfNat n.natAbs) := by
  rw [scaled_eq, signBit_ofInt h, magnitude_ofInt h]
  simp only [decide_eq_true_eq]

theorem isFinite_ofInt {n : Int} (h : n.natAbs < 2 ^ 64) : isFinite (ofInt n) = true := by
  have hfinite : isFinite (ofInt n) = decide (magnitude (ofInt n) < 2047 * 2 ^ 52) := rfl
  rw [hfinite, magnitude_ofInt h]
  exact decide_eq_true (bitsOfNat_lt h)

theorem isNaN_eq_false_of_isFinite {f : Float} (h : isFinite f = true) : isNaN f = false := by
  simp only [isFinite, decide_eq_true_eq] at h
  exact decide_eq_false (Nat.not_lt.2 h.le)

/-- **Conversion of integers is monotone.** -/
theorem scaled_ofInt_le {m n : Int} (hm : m.natAbs < 2 ^ 64) (hn : n.natAbs < 2 ^ 64)
    (h : m ≤ n) : scaled (ofInt m) ≤ scaled (ofInt n) := by
  rw [scaled_ofInt hm, scaled_ofInt hn]
  split <;> split
  · have habs : n.natAbs ≤ m.natAbs := by omega
    have hpoints := position_strictMono.monotone (bitsOfNat_mono habs)
    omega
  · omega
  · omega
  · have habs : m.natAbs ≤ n.natAbs := by omega
    have hpoints := position_strictMono.monotone (bitsOfNat_mono habs)
    omega

theorem unit_eq : unit = (2 ^ depth : Nat) := by
  have hunit : unit = Int.ofNat (1 <<< depth) := by
    rw [depth_eq]
    rfl
  rw [hunit, Nat.one_shiftLeft]
  rfl

theorem unit_pos : 0 < unit := by
  rw [unit_eq]
  exact Int.natCast_pos.2 (Nat.two_pow_pos depth)

theorem unit_ne_zero : unit ≠ 0 := unit_pos.ne'

/-- An integer that has no more bits than a significand is converted to itself. -/
theorem scaled_ofInt_of_lt {n : Int} (h : n.natAbs < 2 ^ 53) : scaled (ofInt n) = n * unit := by
  have hpoint := position_bitsOfNat_of_lt h
  rw [fine_eq, Nat.mul_left_comm] at hpoint
  rw [scaled_ofInt (by omega), Nat.eq_of_mul_eq_mul_left (by decide) hpoint, unit_eq]
  push_cast
  split
  · rename_i hneg
    rw [abs_of_neg hneg]
    ring
  · rename_i hnonneg
    rw [abs_of_nonneg (not_lt.1 hnonneg)]

/-- No other natural number is converted to the double of a number below 2^53. -/
theorem eq_of_bitsOfNat_eq {m n : Nat} (hn : n < 2 ^ 53) (h : bitsOfNat m = bitsOfNat n) :
    m = n := by
  have hinjective {k l : Nat} (hk : k < 2 ^ 53) (hl : l < 2 ^ 53)
      (hbits : bitsOfNat k = bitsOfNat l) : k = l := by
    have hpoints := position_bitsOfNat_of_lt hk
    rw [hbits, position_bitsOfNat_of_lt hl] at hpoints
    exact (Nat.eq_of_mul_eq_mul_right fine_pos hpoints).symm
  rcases Nat.lt_trichotomy m n with hlt | heq | hgt
  · exact hinjective (hlt.trans hn) hn h
  · exact heq
  · -- The number after `n` would be converted to the same double.
    have hnext : bitsOfNat (n + 1) = bitsOfNat n :=
      le_antisymm ((bitsOfNat_mono hgt).trans h.le) (bitsOfNat_mono (Nat.le_succ n))
    rcases Nat.lt_or_ge (n + 1) (2 ^ 53) with hlt | hge
    · exact absurd (hinjective hlt hn hnext) (Nat.succ_ne_self n)
    · obtain rfl : n = 2 ^ 53 - 1 := by omega
      exact absurd hnext (by decide)

/-- No other integer is converted to the double of an integer below 2^53. -/
theorem eq_of_scaled_ofInt_eq {m n : Int} (hm : m.natAbs < 2 ^ 64) (hn : n.natAbs < 2 ^ 53)
    (h : scaled (ofInt m) = scaled (ofInt n)) : m = n := by
  have hn64 : n.natAbs < 2 ^ 64 := hn.trans (by decide)
  have hbits : bitsOfNat m.natAbs = bitsOfNat n.natAbs := by
    apply position_strictMono.injective
    rw [← magnitude_ofInt hm, ← magnitude_ofInt hn64, ← natAbs_scaled, ← natAbs_scaled, h]
  have habs : m.natAbs = n.natAbs := eq_of_bitsOfNat_eq hn hbits
  by_cases hzero : n = 0
  · omega
  · -- Two numbers of one size other than zero differ in their signs only.
    have hpos : position (bitsOfNat n.natAbs) ≠ 0 := fun hp =>
      hzero (Int.natAbs_eq_zero.1 (eq_of_bitsOfNat_eq (by decide) (position_eq_zero.1 hp)))
    rw [scaled_ofInt hm, scaled_ofInt hn64, hbits] at h
    split at h <;> split at h <;> omega

/-- A whole double of fewer bits than a significand is the one that its integer is converted to. -/
theorem scaled_ofInt_truncate {f : Float} (hwhole : isIntegral f = true)
    (hlt : (truncate f).natAbs < 2 ^ 53) : scaled (ofInt (truncate f)) = scaled f := by
  have hdvd : unit ∣ scaled f := by
    rw [isIntegral, Bool.and_eq_true, beq_iff_eq] at hwhole
    exact Int.dvd_of_emod_eq_zero hwhole.2
  rw [scaled_ofInt_of_lt hlt, truncate, Int.tdiv_mul_cancel hdvd]

/-! ## Machine integers -/

theorem natAbs_toInt_lt (n : Int64) : n.toInt.natAbs < 2 ^ 64 := by
  have hlow := n.le_toInt
  have hhigh := n.toInt_lt
  omega

theorem isFinite_ofInt64 (n : Int64) : isFinite (ofInt64 n) = true :=
  isFinite_ofInt (natAbs_toInt_lt n)

theorem isNaN_ofInt64 (n : Int64) : isNaN (ofInt64 n) = false :=
  isNaN_eq_false_of_isFinite (isFinite_ofInt64 n)

theorem scaled_ofInt64_le {m n : Int64} (h : m.toInt ≤ n.toInt) :
    scaled (ofInt64 m) ≤ scaled (ofInt64 n) :=
  scaled_ofInt_le (natAbs_toInt_lt m) (natAbs_toInt_lt n) h

/-- The machine integer of a double is its integer, moved into the range of machine integers. -/
theorem toInt_saturate_eq {f : Float} (hf : isNaN f = false) :
    (saturate f).toInt = max (-2 ^ 63) (min (truncate f) (2 ^ 63 - 1)) := by
  have hmin : Int64.minValue.toInt = -2 ^ 63 := rfl
  have hmax : Int64.maxValue.toInt = 2 ^ 63 - 1 := rfl
  rw [saturate, hf, if_neg Bool.false_ne_true]
  dsimp only
  split
  · omega
  · split
    · omega
    · rw [Int64.toInt_ofInt_of_le (by omega) (by omega)]
      omega

/-- A number within the range of machine integers is cut, not moved to the end of the range. -/
theorem toInt_saturate {f : Float} (hf : isNaN f = false) (h : (truncate f).natAbs < 2 ^ 63) :
    (saturate f).toInt = truncate f := by
  rw [toInt_saturate_eq hf]
  omega

/-! ## Rounding to integers -/

/-- The integer is the nearest one to the fraction `x / u`; of two it is the one farther from
zero. -/
structure NearestInteger (x u n : Int) : Prop where
  near : 2 * |n * u - x| ≤ u
  away : 2 * |n * u - x| = u → |x| < |n * u|

theorem NearestInteger.neg {x u n : Int} (h : NearestInteger x u n) :
    NearestInteger (-x) u (-n) := by
  have hdistance : |-n * u - -x| = |n * u - x| := by
    rw [← abs_neg (n * u - x)]
    congr 1
    ring
  have hsize : |-n * u| = |n * u| := by rw [Int.neg_mul, abs_neg]
  refine ⟨?_, ?_⟩
  · rw [hdistance]
    exact h.near
  · rw [hdistance, hsize, abs_neg]
    exact h.away

theorem nearestInteger_iff_of_nonneg {x u n : Int} (hu : 0 < u) (hx : 0 ≤ x) :
    NearestInteger x u n ↔ n = (2 * x + u) / (2 * u) := by
  have hdiv : n = (2 * x + u) / (2 * u) ↔ 2 * (n * u) ≤ 2 * x + u ∧ 2 * x < 2 * (n * u) + u := by
    rw [eq_comm, Int.ediv_eq_iff_of_pos (by omega)]
    have hmul : n * (2 * u) = 2 * (n * u) := by ring
    have hnext : (n + 1) * (2 * u) = 2 * (n * u) + 2 * u := by ring
    omega
  rw [hdiv]
  constructor
  · intro ⟨hnear, haway⟩
    obtain ⟨hlow, hhigh⟩ := abs_le.1 (show |n * u - x| ≤ u / 2 by omega)
    refine ⟨by omega, ?_⟩
    by_contra hle
    -- The fraction is the middle between `n` and the next integer, which is farther from zero.
    have hmiddle : 2 * |n * u - x| = u := by
      rw [abs_of_nonpos (by omega)]
      omega
    have hfar := haway hmiddle
    rw [abs_of_nonneg hx] at hfar
    rcases lt_or_ge n 0 with hn | hn
    · have hbelow : n * u ≤ -1 * u := Int.mul_le_mul_of_nonneg_right (by omega) hu.le
      omega
    · rw [abs_of_nonneg (Int.mul_nonneg hn hu.le)] at hfar
      omega
  · intro ⟨hlow, hhigh⟩
    refine ⟨?_, fun hmiddle => ?_⟩
    · have : |n * u - x| ≤ u / 2 := abs_le.2 ⟨by omega, by omega⟩
      omega
    · rw [abs_of_nonneg hx]
      rcases abs_cases (n * u - x) with ⟨habs, -⟩ | ⟨habs, -⟩
      · exact lt_of_lt_of_le (by omega) (le_abs_self (n * u))
      · omega

theorem roundHalfAway_eq (f : Float) : roundHalfAway f =
    if scaled f < 0 then -((2 * |scaled f| + unit) / (2 * unit))
    else (2 * |scaled f| + unit) / (2 * unit) := by
  have hshift (m : Nat) : ((2 * m + (1 <<< 1074)) >>> 1075 : Nat) =
      (2 * (m : Int) + unit) / (2 * unit) := by
    have hone : 1 <<< 1074 = 2 ^ depth := by rw [← Nat.one_shiftLeft, depth_eq]
    have hbits : 1075 = depth + 1 := by rw [depth_eq]
    rw [hone, hbits, Nat.shiftRight_eq_div_pow, Nat.pow_succ', unit_eq]
    push_cast
    rfl
  rw [roundHalfAway]
  simp only [hshift, Int.natCast_natAbs]

/-- **Rounding gives the nearest integer.** -/
theorem nearestInteger_iff {f : Float} {n : Int} :
    NearestInteger (scaled f) unit n ↔ n = roundHalfAway f := by
  rw [roundHalfAway_eq]
  split
  · rename_i hneg
    -- Below zero both sides are mirrored.
    have hpositive : 0 ≤ -scaled f := by omega
    rw [abs_of_neg hneg, ← neg_eq_iff_eq_neg, ← nearestInteger_iff_of_nonneg unit_pos hpositive]
    constructor
    · exact NearestInteger.neg
    · intro h
      simpa using h.neg
  · rename_i hpositive
    rw [abs_of_nonneg (not_lt.1 hpositive)]
    exact nearestInteger_iff_of_nonneg unit_pos (not_lt.1 hpositive)

end DocStore.Binary64
