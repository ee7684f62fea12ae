import DocStore.Number.Binary64

/-!
# Decimal text of doubles

`Decimal.shortest` gives the fewest digits that read back as the same double, the nearest of those
if there are several. A `Layout` says how digits are laid out; `Layout.json` and `Layout.plain` are
the two that the store writes.
-/

set_option autoImplicit false

namespace DocStore

/-- The number `digits · 10^exponent`. -/
structure Decimal where
  digits : Nat
  exponent : Int
deriving DecidableEq, Repr

namespace Decimal

/-- Which of two equally near decimals is taken. -/
inductive Tie where
  /-- The one with the even last digit. -/
  | toEven
  /-- The greater one. -/
  | up
deriving DecidableEq, Repr

/-- A quotient of natural numbers with the ends of the interval that rounds to it, all over one
denominator. -/
structure Interval where
  low : Nat
  value : Nat
  high : Nat
  denominator : Nat
  /-- Whether the ends belong to the interval. -/
  closed : Bool

/-- The reals that round to the absolute value of a finite double. -/
def Interval.ofFloat (f : Float) : Interval :=
  let sig := Binary64.significand f
  let ulp := 1 <<< Binary64.shift f
  -- Below a power of two the doubles lie twice as dense.
  let below := if Binary64.fraction f = 0 ∧ 1 < Binary64.exponent f then ulp else 2 * ulp
  { low := 4 * sig * ulp - below
    value := 4 * sig * ulp
    high := 4 * sig * ulp + 2 * ulp
    denominator := 1 <<< 1076
    closed := sig % 2 == 0 }

/-- The interval in units of `10^exponent`. -/
def Interval.rescale (i : Interval) (exponent : Int) : Interval :=
  let up := Nat.pow 10 (-exponent).toNat
  { i with
    low := i.low * up
    value := i.value * up
    high := i.high * up
    denominator := i.denominator * Nat.pow 10 exponent.toNat }

/-- The whole number in the interval that is nearest to its value, if one of the two neighbours of
the value lies in it. -/
def Interval.whole? (i : Interval) (tie : Tie) : Option Nat :=
  let q := i.value / i.denominator
  let r := i.value % i.denominator
  let reaches (a b : Nat) : Bool := if i.closed then a ≤ b else a < b
  let lower := r == 0 || reaches i.low (q * i.denominator)
  let upper := reaches ((q + 1) * i.denominator) i.high
  let nearer :=
    if 2 * r < i.denominator then q
    else if i.denominator < 2 * r then q + 1
    else match tie with
      | .toEven => q + q % 2
      | .up => q + 1
  match lower, upper with
  | true, true => some nearer
  | true, false => some q
  | false, true => some (q + 1)
  | false, false => none

/-- The least `k` from `k` on, within `fuel` steps, with `den ≤ num · 10^k`. -/
def scaleUp (num den : Nat) : Nat → Nat → Nat
  | 0, k => k
  | fuel + 1, k => if den ≤ num * Nat.pow 10 k then k else scaleUp num den fuel (k + 1)

/-- The power of ten of the leading digit of a quotient between 10^(-400) and any size. -/
def leadingExponent (num den : Nat) : Int :=
  if den ≤ num then ((Nat.toDigits 10 (num / den)).length : Int) - 1
  else -(scaleUp num den 400 0 : Nat)

/-- Tries one digit, then two, and so on, up to `count` more than `tried`. -/
def search (i : Interval) (tie : Tie) (leading : Int) : Nat → Nat → Decimal
  | 0, tried => { digits := i.value / i.denominator, exponent := leading - tried }
  | count + 1, tried =>
    let exponent := leading - tried
    match (i.rescale exponent).whole? tie with
    | some n => { digits := n, exponent }
    | none => search i tie leading count (tried + 1)

/-- Drops trailing zeros, at most `fuel` of them. -/
def trim (d : Decimal) : Nat → Decimal
  | 0 => d
  | fuel + 1 =>
    if d.digits % 10 = 0 then trim { digits := d.digits / 10, exponent := d.exponent + 1 } fuel
    else d

/-- The shortest decimal that reads back as the absolute value of a finite double. -/
def shortest (tie : Tie) (f : Float) : Decimal :=
  if Binary64.magnitude f = 0 then { digits := 0, exponent := 0 }
  else
    let i := Interval.ofFloat f
    trim (search i tie (leadingExponent i.value i.denominator) 17 0) 17

/-- How a decimal is laid out. -/
structure Layout where
  /-- The least and the greatest power of ten of the leading digit that are written without an
  exponent; none if an exponent is never written. -/
  positional : Option (Int × Int)
  /-- Whether a whole number ends in `.0`. -/
  pointZero : Bool
  /-- Which of two equally near decimals is taken. -/
  tie : Tie

/-- Numbers in JSON text: positional from `0.00001` to below `10^16`, always with a point or an
exponent. -/
def Layout.json : Layout := { positional := some (-5, 15), pointZero := true, tie := .toEven }

/-- Numbers in messages and keys: never an exponent, no point in a whole number. -/
def Layout.plain : Layout := { positional := none, pointZero := false, tie := .up }

/-- Digits with a point somewhere. -/
def positionalText (pointZero : Bool) (d : Decimal) : String :=
  let ds := Nat.toDigits 10 d.digits
  if 0 ≤ d.exponent then
    String.ofList (ds ++ List.replicate d.exponent.toNat '0') ++ (if pointZero then ".0" else "")
  else
    let places := (-d.exponent).toNat
    let padded := List.replicate (places + 1 - ds.length) '0' ++ ds
    let whole := padded.length - places
    String.ofList (padded.take whole ++ '.' :: padded.drop whole)

/-- One digit before the point, and the power of ten with its sign. -/
def scientificText (d : Decimal) : String :=
  let ds := Nat.toDigits 10 d.digits
  let leading : Int := d.exponent + ds.length - 1
  let mantissa := match ds with
    | [] => []
    | [c] => [c]
    | c :: cs => c :: '.' :: cs
  String.ofList mantissa ++ (if leading < 0 then "e" else "e+") ++ toString leading

/-- Lays out a decimal. -/
def Layout.text (l : Layout) (d : Decimal) : String :=
  match l.positional with
  | none => positionalText l.pointZero d
  | some (least, greatest) =>
    let leading : Int := d.exponent + (Nat.toDigits 10 d.digits).length - 1
    if least ≤ leading ∧ leading ≤ greatest then positionalText l.pointZero d
    else scientificText d

/-- The text of a double: the shortest digits that read back, in the given layout. -/
def Layout.format (l : Layout) (f : Float) : String :=
  if Binary64.isNaN f then "NaN"
  else
    let sign := if Binary64.signBit f then "-" else ""
    if Binary64.isFinite f then sign ++ l.text (shortest l.tie f) else sign ++ "inf"

end Decimal

end DocStore
