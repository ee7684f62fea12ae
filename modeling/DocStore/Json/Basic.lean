import DocStore.Fields
import DocStore.Number.Binary64
import DocStore.Number.Checked

/-!
# JSON values

A JSON number keeps the form in which it was written: without fraction and exponent it is an
integer of arbitrary sign, otherwise a double. Integers read from text lie between -2^63 and
2^64 - 1; the views `toInt64?` and `toUInt64?` pick the range that a caller needs.
-/

set_option autoImplicit false

namespace DocStore

/-- A JSON number. -/
inductive Json.Number where
  | integer (n : Int)
  | double (f : Float)

/-- A JSON value; the fields of an object keep their order. -/
inductive Json where
  | null
  | bool (b : Bool)
  | number (n : Json.Number)
  | string (s : String)
  | array (items : List Json)
  | object (fields : List (String × Json))

namespace Json

instance : Inhabited Json := ⟨null⟩

/-- The number as a signed 64-bit integer, if it is written as one and fits. -/
def Number.toInt64? : Number → Option Int64
  | .integer n => Checked.ofInt? n
  | .double _ => none

/-- The number as an unsigned 64-bit integer, if it is written as one and fits. -/
def Number.toUInt64? : Number → Option Nat
  | .integer n => if 0 ≤ n ∧ n.toNat < UInt64.size then some n.toNat else none
  | .double _ => none

/-- The double nearest to the number. -/
def Number.toFloat : Number → Float
  | .integer n => Binary64.ofInt n
  | .double f => f

/-- The integer view of a JSON value. -/
def toInt64? : Json → Option Int64
  | number n => n.toInt64?
  | _ => none

/-- The unsigned view of a JSON value. -/
def toUInt64? : Json → Option Nat
  | number n => n.toUInt64?
  | _ => none

/-- The text of a JSON string. -/
def string? : Json → Option String
  | string s => some s
  | _ => none

/-- The truth value of a JSON boolean. -/
def bool? : Json → Option Bool
  | bool b => some b
  | _ => none

/-- The items of a JSON array. -/
def array? : Json → Option (List Json)
  | array items => some items
  | _ => none

/-- The fields of a JSON object. -/
def object? : Json → Option (Fields Json)
  | object fields => some fields
  | _ => none

/-- The field of a JSON object. -/
def get? (j : Json) (name : String) : Option Json :=
  j.object?.bind (Fields.get? · name)

/-- Whether the value is a number. -/
def isNumber : Json → Bool
  | number _ => true
  | _ => false

/-- An integer as JSON. -/
def ofInt (n : Int) : Json := number (.integer n)

end Json

end DocStore
