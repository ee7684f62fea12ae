import Mathlib
import DocStore.Number.Binary64

/-!
# The grid of doubles

The magnitudes of doubles, their bits without the sign, count the points of a grid on the positive
axis: `position` is strictly increasing, and `step` is the distance to the next point. A double is
its sign and its magnitude, so `scaled` tells all doubles apart but the two zeros.

Mathlib is imported as a whole for the lemmas on the model of floats, which no single module of it
brings along.
-/

set_option autoImplicit false

namespace DocStore.Binary64

/-! ## Points of the grid -/

/-- The absolute value of the doubles of a magnitude, times 2^1074. -/
def position (k : Nat) : Nat :=
  if k / 2 ^ 52 = 0 then k % 2 ^ 52
  else (2 ^ 52 + k % 2 ^ 52) * 2 ^ (k / 2 ^ 52 - 1)

/-- The distance from a point of the grid to the next one. -/
def step (k : Nat) : Nat := 2 ^ (k / 2 ^ 52 - 1)

theorem step_pos (k : Nat) : 0 < step k := Nat.two_pow_pos _

theorem position_zero : position 0 = 0 := rfl

/-- A point of the grid given by its exponent field and its fraction. -/
theorem position_of_fields (e : Nat) {m : Nat} (hm : m < 2 ^ 52) :
    position (e * 2 ^ 52 + m) = if e = 0 then m else (2 ^ 52 + m) * 2 ^ (e - 1) := by
  have hdiv : (e * 2 ^ 52 + m) / 2 ^ 52 = e := by omega
  have hmod : (e * 2 ^ 52 + m) % 2 ^ 52 = m := by omega
  rw [position, hdiv, hmod]

/-- **One point after the other.** -/
theorem position_succ (k : Nat) : position (k + 1) = position k + step k := by
  have hsplit : k = k / 2 ^ 52 * 2 ^ 52 + k % 2 ^ 52 := by omega
  have hlt : k % 2 ^ 52 < 2 ^ 52 := Nat.mod_lt _ (by decide)
  rw [step]
  generalize k / 2 ^ 52 = e at *
  generalize k % 2 ^ 52 = m at *
  subst hsplit
  rw [position_of_fields e hlt]
  by_cases hlast : m + 1 = 2 ^ 52
  · -- The fraction is exhausted, so the exponent grows.
    have hnext : e * 2 ^ 52 + m + 1 = (e + 1) * 2 ^ 52 + 0 := by omega
    rw [hnext, position_of_fields (e + 1) (by decide)]
    cases e with
    | zero => simp; omega
    | succ e =>
        have hm : m = 2 ^ 52 - 1 := by omega
        simp only [Nat.add_eq_zero_iff, one_ne_zero, and_false, if_false, Nat.add_sub_cancel, hm]
        rw [Nat.pow_succ]
        omega
  · have hnext : e * 2 ^ 52 + m + 1 = e * 2 ^ 52 + (m + 1) := by omega
    rw [hnext, position_of_fields e (by omega)]
    split
    · rename_i he
      simp [he]
    · rw [← Nat.add_assoc, Nat.add_mul, Nat.one_mul]

theorem position_eq_pred {k : Nat} (hk : k ≠ 0) :
    position k = position (k - 1) + step (k - 1) := by
  rw [← position_succ, Nat.sub_add_cancel (Nat.pos_of_ne_zero hk)]

theorem position_strictMono : StrictMono position :=
  strictMono_nat_of_lt_succ fun k => by
    rw [position_succ]
    exact Nat.lt_add_of_pos_right (step_pos k)

theorem position_eq_zero {k : Nat} : position k = 0 ↔ k = 0 := by
  rw [← position_zero]
  exact position_strictMono.injective.eq_iff

theorem le_position (k : Nat) : k ≤ position k := position_strictMono.le_apply

/-! ## Doubles on the grid -/

theorem significand_shiftLeft (f : Float) :
    significand f <<< shift f = position (magnitude f) := by
  have hexponent : exponent f = magnitude f / 2 ^ 52 := Nat.shiftRight_eq_div_pow _ _
  have hfraction : fraction f = magnitude f % 2 ^ 52 := rfl
  rw [Nat.shiftLeft_eq, significand, shift, position, hexponent, hfraction]
  by_cases he : magnitude f / 2 ^ 52 = 0
  · rw [if_pos he, if_pos he, he, Nat.zero_sub, Nat.pow_zero, Nat.mul_one]
  · rw [if_neg he, if_neg he]
    rfl

/-- A double is a signed point of the grid. -/
theorem scaled_eq (f : Float) :
    scaled f = if signBit f then -(position (magnitude f) : Int) else position (magnitude f) := by
  rw [scaled, significand_shiftLeft]

theorem natAbs_scaled (f : Float) : (scaled f).natAbs = position (magnitude f) := by
  rw [scaled_eq]
  split <;> simp

theorem scaled_eq_zero {f : Float} : scaled f = 0 ↔ magnitude f = 0 := by
  rw [← Int.natAbs_eq_zero, natAbs_scaled, position_eq_zero]

/-- The bits are the sign and the magnitude. -/
theorem toNat_toBits (f : Float) :
    f.toBits.toNat = (if signBit f then 2 ^ 63 else 0) + magnitude f := by
  have hlt : f.toBits.toNat < 2 ^ 64 := f.toBits.toNat_lt
  have hsign : signBit f = decide (2 ^ 63 ≤ f.toBits.toNat) := rfl
  have hmagnitude : magnitude f = f.toBits.toNat % 2 ^ 63 := rfl
  rw [hsign, hmagnitude]
  split <;> simp_all <;> omega

/-- **Different doubles have different values**, but for the two zeros. -/
theorem eq_or_zero_of_scaled_eq {f g : Float} (h : scaled f = scaled g) :
    f = g ∨ magnitude f = 0 ∧ magnitude g = 0 := by
  have hmagnitude : magnitude f = magnitude g := by
    apply position_strictMono.injective
    rw [← natAbs_scaled, ← natAbs_scaled, h]
  -- Of zero alone the value does not show the sign.
  by_cases hzero : magnitude f = 0
  · exact .inr ⟨hzero, hmagnitude ▸ hzero⟩
  · left
    have hsign : signBit f = signBit g := by
      have hpos : position (magnitude f) ≠ 0 := fun hp => hzero (position_eq_zero.1 hp)
      rw [scaled_eq, scaled_eq, ← hmagnitude] at h
      cases hf : signBit f <;> cases hg : signBit g <;> simp [hf, hg] at h ⊢ <;> omega
    apply Float.toBits_inj.1
    apply UInt64.toNat_inj.1
    rw [toNat_toBits, toNat_toBits, hsign, hmagnitude]

/-! ## Doubles from bits -/

/-- **Bits that are no NaN are kept** by the double that they make. -/
theorem toBits_ofBits {b : UInt64} (h : b.toNat % 2 ^ 63 ≤ 2047 * 2 ^ 52) :
    (Float.ofBits b).toBits = b := by
  have hvalid : Float.Model.Format.binary64.Valid b.toBitVec := by
    refine ⟨fun hexponent hmantissa => ?_⟩
    -- All bits of the exponent and one of the mantissa would make a NaN.
    exfalso
    rw [Float.Model.UnpackedFloat.unpackExponent_def] at hexponent
    rw [Float.Model.UnpackedFloat.unpackMantissa_def] at hmantissa
    have he := congrArg BitVec.toNat hexponent
    have hm : (BitVec.extractLsb' 0 52 b.toBitVec).toNat ≠ 0 := fun hm =>
      hmantissa (BitVec.eq_of_toNat_eq (by simpa using hm))
    simp only [BitVec.extractLsb'_toNat, Nat.shiftRight_eq_div_pow] at he hm
    change b.toNat / 2 ^ 52 % 2 ^ 11 = 2047 at he
    change b.toNat / 2 ^ 0 % 2 ^ 52 ≠ 0 at hm
    omega
  change UInt64.ofBitVec (Float.Model.UnpackedFloat.pack Float.Model.Format.binary64
    (Float.Model.UnpackedFloat.unpack Float.Model.Format.binary64 b.toBitVec)) = b
  rw [Float.Model.UnpackedFloat.pack_unpack_of_valid hvalid]

end DocStore.Binary64
