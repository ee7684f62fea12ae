/-!
# Doubles as exact numbers

A double that is no NaN is seen through `scaled`: its value times 2^1074, an integer, with the
infinities placed beyond every finite value. Order, equality, integrality and rounding to an
integer are stated on that integer, so none of them depends on floating-point operations.
-/

set_option autoImplicit false

namespace DocStore.Binary64

/-! ## Fields of the bit pattern -/

/-- Whether the sign bit is set. -/
def signBit (f : Float) : Bool := 1 <<< 63 ≤ f.toBits.toNat

/-- The bits without the sign. -/
def magnitude (f : Float) : Nat := f.toBits.toNat % (1 <<< 63)

/-- The biased exponent. -/
def exponent (f : Float) : Nat := magnitude f >>> 52

/-- The bits below the exponent. -/
def fraction (f : Float) : Nat := magnitude f % (1 <<< 52)

/-- Not a number. -/
def isNaN (f : Float) : Bool := 2047 <<< 52 < magnitude f

/-- Neither infinite nor NaN. -/
def isFinite (f : Float) : Bool := magnitude f < 2047 <<< 52

/-- The significand, with the leading one of a normal number made explicit. -/
def significand (f : Float) : Nat :=
  if exponent f = 0 then fraction f else (1 <<< 52) + fraction f

/-- The power of two that the significand is multiplied by, counted from 2^(-1074). -/
def shift (f : Float) : Nat := exponent f - 1

/-! ## The exact value -/

/-- The value times 2^1074. -/
def scaled (f : Float) : Int :=
  let m : Nat := significand f <<< shift f
  if signBit f then -(m : Int) else m

/-- The factor of `scaled`. -/
def unit : Int := Int.ofNat (1 <<< 1074)

/-- Finite and without a fractional part. -/
def isIntegral (f : Float) : Bool := isFinite f && scaled f % unit == 0

/-- The integer next to the value on the side of zero. -/
def truncate (f : Float) : Int := (scaled f).tdiv unit

/-- The nearest integer, a half going away from zero. -/
def roundHalfAway (f : Float) : Int :=
  let m := (scaled f).natAbs
  let n : Nat := (2 * m + (1 <<< 1074)) >>> 1075
  if scaled f < 0 then -(n : Int) else n

/-- Equality of values: both zeros are one value, and NaN equals nothing. -/
def equal (a b : Float) : Bool := !isNaN a && !isNaN b && scaled a == scaled b

/-- Order of values; NaN is comparable with nothing. -/
def compare? (a b : Float) : Option Ordering :=
  if isNaN a || isNaN b then none else some (compare (scaled a) (scaled b))

/-- Order of values with NaN below every number and equal to itself. -/
def compareTotal (a b : Float) : Ordering :=
  match isNaN a, isNaN b with
  | true, true => .eq
  | true, false => .lt
  | false, true => .gt
  | false, false => compare (scaled a) (scaled b)

/-! ## From integers -/

/-- The quotient by a power of two, rounded to nearest, a tie going to the even quotient. -/
def shiftRounded (n s : Nat) : Nat :=
  let q := n >>> s
  let r := n % (1 <<< s)
  if 2 * r < 1 <<< s then q
  else if 2 * r = 1 <<< s then q + q % 2
  else q + 1

/-- The bits of the double nearest to a natural number below 2^1023, ties to even. -/
def bitsOfNat (n : Nat) : Nat :=
  if n = 0 then 0
  else
    let top := n.log2
    -- A significand that rounds up to 2^53 carries into the exponent, which is what is wanted.
    let sig := if top ≤ 52 then n <<< (52 - top) else shiftRounded n (top - 52)
    ((top + 1022) <<< 52) + sig

/-- The double nearest to a natural number below 2^1023, ties to even. -/
def ofNat (n : Nat) : Float := Float.ofBits (UInt64.ofNat (bitsOfNat n))

/-- The double nearest to an integer, ties to even. -/
def ofInt (n : Int) : Float :=
  if n < 0 then Float.ofBits (UInt64.ofNat ((1 <<< 63) + bitsOfNat n.natAbs)) else ofNat n.natAbs

/-- The double nearest to a machine integer. -/
def ofInt64 (n : Int64) : Float := ofInt n.toInt

/-- The machine integer nearest to zero's side of the value, the ends of the range standing for
all that lies beyond them; NaN gives zero. -/
def saturate (f : Float) : Int64 :=
  if isNaN f then 0
  else
    let n := truncate f
    if n < Int64.minValue.toInt then Int64.minValue
    else if Int64.maxValue.toInt < n then Int64.maxValue
    else Int64.ofInt n

/-- The bit pattern in sixteen lower-case hexadecimal digits. -/
def hexBits (f : Float) : String :=
  let digits := Nat.toDigits 16 f.toBits.toNat
  String.ofList (List.replicate (16 - digits.length) '0' ++ digits)

end DocStore.Binary64
