import DocStore.Value.Basic
import DocStore.Text.Quoted
import DocStore.Number.Decimal

/-!
# Canonical keys

A text that stands for a value where values are grouped or counted once. Whole doubles below
9·10^15 are written like integers, the fields of an object are sorted by name, and a date counts to
the millisecond.
-/

set_option autoImplicit false

namespace DocStore.Value

/-- Whole doubles of an absolute value below this are written like integers. -/
def wholeLimit : Int := 9000000000000000

/-- The key of a double. -/
def floatKey (f : Float) : String :=
  if Binary64.isIntegral f && (Binary64.truncate f).natAbs < wholeLimit.natAbs then
    "n:" ++ toString (Binary64.truncate f)
  else "n:" ++ Decimal.Layout.plain.format f

/-- The key of an object from the keys of its values. -/
def objectKey (fields : List (String × String)) : String :=
  let sorted := fields.mergeSort fun a b => a.1 ≤ b.1
  "\x7b" ++ ",".intercalate (sorted.map fun e => Quoted.encode e.1 ++ ":" ++ e.2) ++ "\x7d"

mutual

/-- The canonical key of a value. -/
def canonicalKey : Value → String
  | null => "null"
  | bool b => if b then "true" else "false"
  | int n => "n:" ++ toString n.toInt
  | float f => floatKey f
  | string s => "s:" ++ Quoted.encode s
  | date t => "d:" ++ toString t.toMillis
  | array items => "[" ++ ",".intercalate (itemKeys items) ++ "]"
  | object fields => objectKey (fieldKeys fields)

/-- The keys of the items of an array. -/
def itemKeys : List Value → List String
  | [] => []
  | v :: rest => canonicalKey v :: itemKeys rest

/-- The keys of the fields of an object, with their names. -/
def fieldKeys : List (String × Value) → List (String × String)
  | [] => []
  | (k, v) :: rest => (k, canonicalKey v) :: fieldKeys rest

end

end DocStore.Value
