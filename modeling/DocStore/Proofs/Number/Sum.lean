import DocStore.Proofs.Number.Rounding

/-!
# Sums and negatives of doubles

The addition of doubles works on unpacked ones, a mantissa with an exponent, and rounds at the end.
What is below a power of two stays below the one after the next, so the sum of two doubles that
stand for machine integers is finite: `isFinite_add_ofInt64`. The negative of a double that is no
NaN has the other sign bit, and its value has the other sign: `scaled_neg`.
-/

set_option autoImplicit false

namespace DocStore.Binary64

open Float.Model (Format UnpackedFloat totalExponent)
open Float.Model.UnpackedFloat

/-! ## Below a power of two -/

/-- A finite number that is below a power of two, the sign apart. -/
def Below (k : Int) : UnpackedFloat → Prop
  | .zero _ => True
  | .finite _ m e _ => m < 2 ^ (k - e).toNat
  | _ => False

theorem Below.mono {j k : Int} {x : UnpackedFloat} (h : Below j x) (hjk : j ≤ k) : Below k x := by
  cases x with
  | zero s => trivial
  | finite s m e hm =>
      exact Nat.lt_of_lt_of_le h (Nat.pow_le_pow_right (by decide) (by omega))
  | infinity s => exact h
  | notANumber => exact h

/-- The exponent is below that of the power. -/
theorem Below.exponent_lt {k : Int} {s : Sign} {m : Nat} {e : Int} {hm : 0 < m}
    (h : Below k (.finite s m e hm)) : e < k := by
  by_contra hle
  have hzero : (k - e).toNat = 0 := by omega
  have hlt : m < 2 ^ (k - e).toNat := h
  rw [hzero] at hlt
  omega

/-! ## Rounding -/

theorem mantissa_shiftRight (em : ExtendedMantissa) (n : Nat) :
    (em >>> n).mantissa = em.mantissa / 2 ^ n := by
  change (n.repeat ExtendedMantissa.shiftRightOne em).mantissa = _
  induction n with
  | zero => simp [Nat.repeat]
  | succ n ih =>
      rw [Nat.repeat, ExtendedMantissa.shiftRightOne, ih, Nat.div_div_eq_div_mul, Nat.pow_succ]

theorem roundedMantissa_le (em : ExtendedMantissa) : em.roundedMantissa ≤ em.mantissa + 1 := by
  obtain ⟨m, round, sticky⟩ := em
  have hparity : m % 2 ≤ 1 := Nat.le_of_lt_succ (Nat.mod_lt m (by decide))
  cases round <;> cases sticky <;>
    simp only [ExtendedMantissa.roundedMantissa, ExtendedMantissa.accuracy,
      Accuracy.roundToNearestEven] <;> omega

/-- What is below a power of two gets no exponent as great as that of the power. -/
theorem targetExponent_le {k : Int} (hk : -1074 ≤ k) {m : Nat} {e : Int}
    (h : m < 2 ^ (k - e).toNat) (he : e < k) :
    Format.binary64.targetExponent (totalExponent m e) ≤ k := by
  have hlog : m.log2 < (k - e).toNat ∨ m = 0 := by
    by_cases hm : m = 0
    · exact .inr hm
    · exact .inl ((Nat.log2_lt hm).2 h)
  have htotal : totalExponent m e ≤ k := by
    unfold totalExponent
    rcases hlog with hlog | rfl
    · omega
    · simp
      omega
  have hmin : Format.binary64.minExponent = -1074 := by decide
  have hbits : Format.binary64.mantissaBits = 53 := by decide
  unfold Format.targetExponent
  rw [hmin, hbits]
  omega

theorem div_two_pow_lt {m n : Nat} (h : m < 2 ^ n) (i : Nat) : m / 2 ^ i < 2 ^ (n - i) := by
  refine Nat.div_lt_of_lt_mul (Nat.lt_of_lt_of_le h ?_)
  rw [← Nat.pow_add]
  exact Nat.pow_le_pow_right (by decide) (by omega)

/-- The mantissa, shifted and rounded, stays below the power of two after the one it was below. -/
theorem roundedMantissa_shiftRight_lt {m n : Nat} (h : m < 2 ^ n) {i : Nat} (hi : i ≤ n) :
    (ExtendedMantissa.ofMantissaAndAccuracy m .exact >>> i).roundedMantissa < 2 ^ (n + 1 - i) := by
  have hrounded := roundedMantissa_le (ExtendedMantissa.ofMantissaAndAccuracy m .exact >>> i)
  rw [mantissa_shiftRight] at hrounded
  change _ ≤ m / 2 ^ i + 1 at hrounded
  have hshifted := div_two_pow_lt h i
  have hpositive := Nat.two_pow_pos (n - i)
  have hpower : n + 1 - i = (n - i) + 1 := by omega
  rw [hpower, Nat.pow_succ]
  omega

/-- What is left of a mantissa after shifting makes a number, zero if nothing is left. -/
theorem below_of_shiftRight {k : Int} (s : Sign) {r : Nat} {e : Int}
    (h : r < 2 ^ (k - e).toNat) (j : Nat) :
    Below k (if hm : (ExtendedMantissa.ofMantissaAndAccuracy r .exact >>> j).mantissa = 0 then
      .zero s else .finite s _ (e + j) (Nat.pos_of_ne_zero hm)) := by
  split
  · trivial
  · have hj := div_two_pow_lt h j
    have hpower : (k - (e + j)).toNat = (k - e).toNat - j := by omega
    change (ExtendedMantissa.ofMantissaAndAccuracy r .exact >>> j).mantissa < 2 ^ _
    rw [mantissa_shiftRight, hpower]
    exact hj

/-- **Rounding** takes what is below a power of two at most to the next one. -/
theorem below_roundWithAccuracy {k : Int} (hk : -1074 ≤ k) (s : Sign) {m : Nat} {e : Int}
    (h : m < 2 ^ (k - e).toNat) (he : e < k) :
    Below (k + 1) (roundWithAccuracy Format.binary64 s m e .exact) := by
  -- The mantissa is shifted to the exponent that rounding is for, rounded there, and a carry
  -- shifts it once more.
  obtain ⟨i, hi⟩ : ∃ i, i = (Format.binary64.targetExponent (totalExponent m e) - e).toNat :=
    ⟨_, rfl⟩
  have hrounded : (ExtendedMantissa.ofMantissaAndAccuracy m .exact >>> i).roundedMantissa <
      2 ^ (k + 1 - (e + i)).toNat := by
    have htarget := targetExponent_le hk h he
    have hpower : (k + 1 - (e + i)).toNat = (k - e).toNat + 1 - i := by omega
    rw [hpower]
    exact roundedMantissa_shiftRight_lt h (by omega)
  subst hi
  exact below_of_shiftRight s hrounded _

/-- A number keeps its size when its exponent is decreased. -/
theorem decreaseExponent_lt {k : Int} {m : Nat} {e : Int} (h : m < 2 ^ (k - e).toNat) (he : e < k)
    (target : Int) : (decreaseExponent m e target).1 <
      2 ^ (k - (decreaseExponent m e target).2).toNat := by
  simp only [decreaseExponent, Nat.shiftLeft_eq]
  have hpower : (k - (e - ((e - target).toNat : Nat))).toNat =
      (k - e).toNat + (e - target).toNat := by omega
  rw [hpower, Nat.pow_add]
  exact Nat.mul_lt_mul_of_pos_right h (Nat.two_pow_pos _)

theorem below_round {k : Int} (hk : -1074 ≤ k) (s : Sign) {m : Nat} {e : Int}
    (h : m < 2 ^ (k - e).toNat) (he : e < k) : Below (k + 1) (round Format.binary64 s m e) := by
  have hsmaller : (decreaseExponent m e
      (Format.binary64.targetExponent (totalExponent m e))).2 ≤ e := by
    simp only [decreaseExponent]
    omega
  exact below_roundWithAccuracy hk s (decreaseExponent_lt h he _) (by omega)

/-! ## Adding -/

theorem below_normalize {k : Int} (hk : -1074 ≤ k) {n : Int} {e : Int}
    (h : n.natAbs < 2 ^ (k - e).toNat) (he : e < k) (s : Sign) :
    Below (k + 1) (UnpackedFloat.normalize Format.binary64 n e s) := by
  unfold UnpackedFloat.normalize
  split
  · exact below_round hk _ (by omega) he
  · trivial
  · exact below_round hk _ (by omega) he

theorem natAbs_apply (s : Sign) (n : Nat) : (s.apply n).natAbs = n := by
  cases s <;> simp [Sign.apply]

/-- **The sum** of two numbers below a power of two is below the one after the next. -/
theorem below_add {k : Int} (hk : -1074 ≤ k) {x y : UnpackedFloat} (hx : Below k x)
    (hy : Below k y) : Below (k + 2) (UnpackedFloat.add Format.binary64 x y) := by
  cases x with
  | infinity s => exact hx.elim
  | notANumber => exact hx.elim
  | zero s =>
      cases y with
      | infinity s' => exact hy.elim
      | notANumber => exact hy.elim
      | zero s' =>
          simp only [UnpackedFloat.add]
          split <;> trivial
      | finite s' m' e' hm' => exact hy.mono (by omega)
  | finite s m e hm =>
      cases y with
      | infinity s' => exact hy.elim
      | notANumber => exact hy.elim
      | zero s' => exact hx.mono (by omega)
      | finite s' m' e' hm' =>
          have he := hx.exponent_lt
          have he' := hy.exponent_lt
          -- Both mantissas count the same unit, that of the smaller exponent.
          have hleft := decreaseExponent_lt hx he (min e e')
          have hright := decreaseExponent_lt hy he' (min e e')
          have hunit : (decreaseExponent m e (min e e')).2 = min e e' := by
            simp only [decreaseExponent]
            omega
          have hunit' : (decreaseExponent m' e' (min e e')).2 = min e e' := by
            simp only [decreaseExponent]
            omega
          rw [hunit] at hleft
          rw [hunit'] at hright
          have hsum := Int.natAbs_add_le (s.apply (decreaseExponent m e (min e e')).1)
            (s'.apply (decreaseExponent m' e' (min e e')).1)
          rw [natAbs_apply, natAbs_apply] at hsum
          have hpower : (k + 1 - min e e').toNat = (k - min e e').toNat + 1 := by omega
          have hlt : (s.apply (decreaseExponent m e (min e e')).1 +
              s'.apply (decreaseExponent m' e' (min e e')).1).natAbs <
                2 ^ (k + 1 - min e e').toNat := by
            rw [hpower, Nat.pow_succ]
            omega
          have hbelow := below_normalize (by omega) hlt (by omega) .positive
          exact hbelow.mono (by omega)

/-! ## Bit patterns -/

theorem exponentBias_eq : Format.binary64.exponentBias = 1023 := by
  decide

theorem toNat_unpackExponent (b : BitVec 64) :
    (@unpackExponent Format.binary64 b).toNat = b.toNat / 2 ^ 52 % 2 ^ 11 := by
  rw [unpackExponent_def]
  simp [BitVec.extractLsb'_toNat, Nat.shiftRight_eq_div_pow]

/-- The exponent field bounds the number that a bit pattern stands for. -/
theorem below_unpack {b : BitVec 64} {j : Nat} (hj : j < 2047) (h : b.toNat / 2 ^ 52 % 2 ^ 11 ≤ j) :
    Below (j - 1022) (unpack Format.binary64 b) := by
  have hexponent := toNat_unpackExponent b
  have hbias := exponentBias_eq
  have hmantissa := (@unpackMantissa Format.binary64 b).isLt
  change _ < 2 ^ 52 at hmantissa
  simp only [unpack]
  split
  · -- All bits of the exponent: the infinities and NaN.
    rename_i hall
    have hfield := congrArg BitVec.toNat hall
    have hfull : (-1#11).toNat = 2047 := by decide
    omega
  · split
    · split
      · trivial
      · refine Nat.lt_of_lt_of_le hmantissa (Nat.pow_le_pow_right (by decide) ?_)
        rename_i hzero _
        have hfield := congrArg BitVec.toNat hzero
        have hempty : (0#11).toNat = 0 := by decide
        omega
    · -- The leading one stands above the bits of the mantissa.
      have hleading : (1#1 ++ @unpackMantissa Format.binary64 b).toNat < 2 ^ 53 :=
        BitVec.isLt _
      refine Nat.lt_of_lt_of_le hleading (Nat.pow_le_pow_right (by decide) ?_)
      omega

/-- What is below a power of two that is not too great gets a pattern of a finite number. -/
theorem unpackExponent_pack_lt {k : Int} (hk : k ≤ 900) {x : UnpackedFloat} (h : Below k x) :
    (pack Format.binary64 x).toNat / 2 ^ 52 % 2 ^ 11 < 2047 := by
  rw [← toNat_unpackExponent]
  cases x with
  | infinity s => exact h.elim
  | notANumber => exact h.elim
  | zero s =>
      simp only [pack, packedZero]
      rw [unpackExponent_packComponents]
      decide
  | finite s m e hm =>
      have he := h.exponent_lt
      have hbias := exponentBias_eq
      obtain ⟨biased, hbiased⟩ :
        ∃ n, n = (e + Format.binary64.exponentBias + (52 : Nat)).toNat := ⟨_, rfl⟩
      simp only [pack]
      rw [← hbiased]
      split
      · rename_i hoverflow
        change 2 ^ 11 ≤ biased + 1 at hoverflow
        omega
      · split
        · rw [unpackExponent_packComponents, BitVec.toNat_ofNat]
          exact Nat.lt_of_le_of_lt (Nat.mod_le _ _) (by omega)
        · rw [unpackExponent_packComponents]
          decide

/-- A double is finite unless all bits of its exponent are set. -/
theorem isFinite_of_field_lt {f : Float} (h : f.toBits.toNat / 2 ^ 52 % 2 ^ 11 < 2047) :
    isFinite f = true := by
  have hmagnitude : magnitude f = f.toBits.toNat % 2 ^ 63 := rfl
  have hfinite : isFinite f = decide (magnitude f < 2047 * 2 ^ 52) := rfl
  rw [hfinite, hmagnitude]
  exact decide_eq_true (by omega)

/-- The double of a machine integer has its exponent field at most 1087. -/
theorem field_ofInt64_le (n : Int64) : (ofInt64 n).toBits.toNat / 2 ^ 52 % 2 ^ 11 ≤ 1087 := by
  have hmono := bitsOfNat_mono (natAbs_toInt_lt n).le
  have hlast : bitsOfNat (2 ^ 64) = 1087 * 2 ^ 52 := by decide
  have hmagnitude := magnitude_ofInt (natAbs_toInt_lt n)
  change (ofInt n.toInt).toBits.toNat % 2 ^ 63 = _ at hmagnitude
  change (ofInt n.toInt).toBits.toNat / 2 ^ 52 % 2 ^ 11 ≤ 1087
  omega

/-- **The sum of two machine integers, added as doubles, is finite.** -/
theorem isFinite_add_ofInt64 (a b : Int64) : isFinite (ofInt64 a + ofInt64 b) = true := by
  have hleft := below_unpack (b := (ofInt64 a).toBits.toBitVec) (by decide) (field_ofInt64_le a)
  have hright := below_unpack (b := (ofInt64 b).toBits.toBitVec) (by decide) (field_ofInt64_le b)
  exact isFinite_of_field_lt
    (unpackExponent_pack_lt (by decide) (below_add (by decide) hleft hright))

/-! ## Negatives -/

theorem toNat_unpackMantissa (b : BitVec 64) :
    (@unpackMantissa Format.binary64 b).toNat = b.toNat % 2 ^ 52 := by
  rw [unpackMantissa_def]
  simp [BitVec.extractLsb'_toNat]

theorem toNat_unpackSign (b : BitVec 64) :
    (@unpackSign Format.binary64 b).toNat = b.toNat / 2 ^ 63 % 2 := by
  rw [unpackSign]
  simp [Nat.shiftRight_eq_div_pow]

theorem ofBitVec_of_ne {s s' : BitVec 1} (h : s' ≠ s) : Sign.ofBitVec s' = -Sign.ofBitVec s := by
  rcases BitVec.eq_zero_or_eq_one s with rfl | rfl <;>
    rcases BitVec.eq_zero_or_eq_one s' with rfl | rfl
  · exact absurd rfl h
  · rfl
  · rfl
  · exact absurd rfl h

/-- Only the sign of the number that a pattern stands for depends on the sign bit. -/
theorem unpack_eq_neg {b c : BitVec 64} (hrest : c.toNat % 2 ^ 63 = b.toNat % 2 ^ 63)
    (hsign : c.toNat / 2 ^ 63 ≠ b.toNat / 2 ^ 63) :
    unpack Format.binary64 c = (unpack Format.binary64 b).neg := by
  have hb := b.isLt
  have hc := c.isLt
  -- The exponent and the mantissa are read from the bits below the sign.
  have hexponent : @unpackExponent Format.binary64 c = @unpackExponent Format.binary64 b := by
    apply BitVec.eq_of_toNat_eq
    rw [toNat_unpackExponent, toNat_unpackExponent]
    omega
  have hmantissa : @unpackMantissa Format.binary64 c = @unpackMantissa Format.binary64 b := by
    apply BitVec.eq_of_toNat_eq
    rw [toNat_unpackMantissa, toNat_unpackMantissa]
    omega
  have hopposite : Sign.ofBitVec (@unpackSign Format.binary64 c) =
      -Sign.ofBitVec (@unpackSign Format.binary64 b) := by
    refine ofBitVec_of_ne fun hsame => hsign ?_
    have hbits := congrArg BitVec.toNat hsame
    rw [toNat_unpackSign, toNat_unpackSign] at hbits
    omega
  simp only [unpack, hexponent, hmantissa, hopposite]
  split
  · split <;> rfl
  · split
    · split <;> rfl
    · rfl

theorem neg_eq_ofBits {f : Float} {b : UInt64} (hrest : b.toNat % 2 ^ 63 = f.toBits.toNat % 2 ^ 63)
    (hsign : b.toNat / 2 ^ 63 ≠ f.toBits.toNat / 2 ^ 63) : -f = Float.ofBits b := by
  show Float.ofModel (.pack (unpack Format.binary64 f.toBits.toBitVec).neg) =
    Float.ofModel (.pack (unpack Format.binary64 b.toBitVec))
  rw [unpack_eq_neg (b := f.toBits.toBitVec) (c := b.toBitVec) hrest hsign]

theorem unpack_of_isNaN {f : Float} (h : isNaN f = true) :
    unpack Format.binary64 f.toBits.toBitVec = .notANumber := by
  have hnan : 2047 * 2 ^ 52 < f.toBits.toNat % 2 ^ 63 := of_decide_eq_true h
  have hexponent : @unpackExponent Format.binary64 f.toBits.toBitVec = -1#11 := by
    apply BitVec.eq_of_toNat_eq
    rw [toNat_unpackExponent]
    show f.toBits.toNat / 2 ^ 52 % 2 ^ 11 = 2047
    omega
  have hmantissa : @unpackMantissa Format.binary64 f.toBits.toBitVec ≠ 0#52 := by
    intro hzero
    have hbits := congrArg BitVec.toNat hzero
    rw [toNat_unpackMantissa] at hbits
    have hempty : f.toBits.toNat % 2 ^ 52 = 0 := hbits
    omega
  exact (if_pos hexponent).trans (if_neg hmantissa)

/-- NaN is its own negative. -/
theorem neg_of_isNaN {f : Float} (h : isNaN f = true) : -f = f := by
  apply Float.toBits_inj.1
  show UInt64.ofBitVec (pack Format.binary64 (unpack Format.binary64 f.toBits.toBitVec).neg) =
    f.toBits
  rw [unpack_of_isNaN h]
  show UInt64.ofBitVec (pack Format.binary64 .notANumber) = f.toBits
  rw [← unpack_of_isNaN h]
  exact congrArg UInt64.ofBitVec (pack_unpack_of_valid f.toModel.valid)

/-- **Other doubles change their sign bit.** -/
theorem toBits_neg {f : Float} (h : isNaN f = false) :
    (-f).toBits.toNat = (f.toBits.toNat + 2 ^ 63) % 2 ^ 64 := by
  have hlt := f.toBits.toNat_lt
  have hmagnitude : f.toBits.toNat % 2 ^ 63 ≤ 2047 * 2 ^ 52 := Nat.not_lt.1 (of_decide_eq_false h)
  obtain ⟨b, hb⟩ : ∃ b : UInt64, b.toNat = (f.toBits.toNat + 2 ^ 63) % 2 ^ 64 :=
    ⟨_, UInt64.toNat_ofNat_of_lt' (Nat.mod_lt _ (by decide))⟩
  rw [neg_eq_ofBits (b := b) (by omega) (by omega), toBits_ofBits (by omega), hb]

theorem magnitude_neg (f : Float) : magnitude (-f) = magnitude f := by
  cases h : isNaN f with
  | true => rw [neg_of_isNaN h]
  | false =>
      show (-f).toBits.toNat % 2 ^ 63 = f.toBits.toNat % 2 ^ 63
      rw [toBits_neg h]
      omega

theorem isFinite_neg (f : Float) : isFinite (-f) = isFinite f := by
  rw [isFinite, isFinite, magnitude_neg]

theorem scaled_neg {f : Float} (h : isNaN f = false) : scaled (-f) = -scaled f := by
  have hlt := f.toBits.toNat_lt
  have hsign : signBit (-f) = !signBit f := by
    show decide (2 ^ 63 ≤ (-f).toBits.toNat) = !decide (2 ^ 63 ≤ f.toBits.toNat)
    rw [toBits_neg h, ← decide_not, decide_eq_decide]
    omega
  rw [scaled_eq, scaled_eq, magnitude_neg, hsign]
  cases signBit f with
  | true => simp
  | false => simp

/-- Rounding does not see the sign. -/
theorem roundHalfAway_neg {f : Float} (h : isNaN f = false) :
    roundHalfAway (-f) = -roundHalfAway f := by
  have hnearest := (nearestInteger_iff.2 (rfl : roundHalfAway f = roundHalfAway f)).neg
  rw [← scaled_neg h] at hnearest
  exact (nearestInteger_iff.1 hnearest).symm

end DocStore.Binary64
