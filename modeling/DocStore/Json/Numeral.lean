import DocStore.Json.Basic

/-!
# JSON numerals

The value of a numeral of the JSON grammar. The digits are gathered into one 64-bit significand;
once a digit does not fit, the remaining digits of its part only count towards the power of ten.
The significand is then rounded to a double and multiplied or divided by a power of ten.
-/

set_option autoImplicit false

namespace DocStore.Json.Numeral

/-- The parts of a numeral: sign, digits before the point, digits after it, exponent. -/
structure Parts where
  negative : Bool
  whole : List Char
  fraction : Option (List Char)
  /-- Whether the exponent is negative, and its digits. -/
  exponent : Option (Bool × List Char)

/-! ## The grammar -/

/-- Splits off the digits at the front. -/
def spanDigits (cs : List Char) : List Char × List Char :=
  (cs.takeWhile Char.isDigit, cs.dropWhile Char.isDigit)

/-- The digits before the point: a lone zero, or digits that start with no zero. -/
def isWhole : List Char → Bool
  | [] => false
  | ['0'] => true
  | c :: _ => c != '0'

/-- Reads the exponent, which ends the numeral. -/
def exponent? : List Char → Option (Option (Bool × List Char))
  | [] => some none
  | c :: cs =>
    if c = 'e' ∨ c = 'E' then
      let (negative, digits) := match cs with
        | '-' :: ds => (true, ds)
        | '+' :: ds => (false, ds)
        | ds => (false, ds)
      if digits ≠ [] ∧ digits.all Char.isDigit then some (some (negative, digits)) else none
    else none

/-- Reads what follows the sign. -/
def unsigned? (negative : Bool) (cs : List Char) : Option Parts :=
  let (whole, rest) := spanDigits cs
  if isWhole whole then
    match rest with
    | '.' :: rest =>
      let (fraction, rest) := spanDigits rest
      if fraction = [] then none
      else
        (exponent? rest).map fun e => { negative, whole, fraction := some fraction, exponent := e }
    | rest => (exponent? rest).map fun e => { negative, whole, fraction := none, exponent := e }
  else none

/-- Splits a numeral into its parts, or none if it breaks the grammar. -/
def parts? : List Char → Option Parts
  | '-' :: cs => unsigned? true cs
  | cs => unsigned? false cs

/-! ## The value -/

/-- The value of a digit. -/
def digitValue (c : Char) : Nat := c.toNat - 48

/-- Appends digits to a significand as long as it stays below 2^64, and counts them. -/
def absorb (sig : Nat) : List Char → Nat × Nat
  | [] => (sig, 0)
  | c :: cs =>
    let next := sig * 10 + digitValue c
    if next < UInt64.size then
      let (sig, taken) := absorb next cs
      (sig, taken + 1)
    else (sig, 0)

/-- The value of a run of digits. -/
def digitsValue (cs : List Char) : Nat := cs.foldl (fun n c => n * 10 + digitValue c) 0

/-- The double nearest to a power of ten. -/
def powerOfTen (n : Nat) : Float := Float.ofScientific 1 false n

/-- Divides by a power of ten, in steps of at most 10^308. -/
def scaleDown (f : Float) (n : Nat) : Float :=
  if n ≤ 308 then f / powerOfTen n
  else if Binary64.magnitude f = 0 then f
  else scaleDown (f / powerOfTen 308) (n - 308)
termination_by n

/-- The double of a significand and a power of ten; none beyond the range of doubles. -/
def scaled? (sig : Nat) (exponent : Int) : Option Float :=
  let f := Binary64.ofNat sig
  if exponent < 0 then some (scaleDown f exponent.natAbs)
  else if exponent ≤ 308 then
    let g := f * powerOfTen exponent.toNat
    if Binary64.isFinite g then some g else none
  else if sig = 0 then some f
  else none

/-- The sign put before a double. -/
def withSign (negative : Bool) (f : Float) : Float := if negative then -f else f

/-- The absolute value of a numeral that is no integer; none beyond the range of doubles. -/
def double? (p : Parts) : Option Float :=
  let (sig, taken) := absorb 0 p.whole
  let dropped : Int := p.whole.length - taken
  let (sig, places) := absorb sig (p.fraction.getD [])
  let base := dropped - places
  match p.exponent with
  | none => scaled? sig base
  | some (negative, digits) =>
    let e := digitsValue digits
    if e < 1 <<< 31 then scaled? sig (if negative then base - e else base + e)
    else if negative ∨ sig = 0 then some 0
    else none

/-- The value of a numeral: an integer if it is written as one and fits the signed or the unsigned
64-bit range, otherwise a double. A minus sign before zero makes a double. -/
def value? (p : Parts) : Option Number :=
  let double := (double? p).map fun f => Number.double (withSign p.negative f)
  match p.fraction, p.exponent with
  | none, none =>
    let n := digitsValue p.whole
    if p.negative then
      if 0 < n ∧ n ≤ 1 <<< 63 then some (.integer (-(n : Int))) else double
    else if n < UInt64.size then some (.integer n)
    else double
  | _, _ => double

/-- Reads a numeral. -/
def read? (cs : List Char) : Option Number := (parts? cs).bind value?

end DocStore.Json.Numeral
