import DocStore.Fields
import DocStore.Calendar.Instant
import DocStore.Number.Binary64

/-!
# Document values

`Value` is what documents are made of: JSON values with machine integers apart from doubles, and
instants. Objects keep the order of their fields.
-/

set_option autoImplicit false

namespace DocStore

/-- A document value. -/
inductive Value where
  | null
  | bool (b : Bool)
  | int (n : Int64)
  | float (f : Float)
  | string (s : String)
  | date (t : Instant)
  | array (items : List Value)
  | object (fields : List (String × Value))

/-- The kind of a value, as schemas and messages name it. -/
inductive Kind where
  | null
  | bool
  | int
  | float
  | string
  | date
  | array
  | object
deriving DecidableEq, Repr

/-- The name of a kind. -/
def Kind.name : Kind → String
  | null => "null"
  | bool => "bool"
  | int => "int"
  | float => "double"
  | string => "string"
  | date => "date"
  | array => "array"
  | object => "object"

namespace Value

instance : Inhabited Value := ⟨null⟩

/-- The kind of a value. -/
def kind : Value → Kind
  | null => .null
  | bool _ => .bool
  | int _ => .int
  | float _ => .float
  | string _ => .string
  | date _ => .date
  | array _ => .array
  | object _ => .object

/-- Whether the value is null. -/
def isNull : Value → Bool
  | null => true
  | _ => false

/-- Whether the value is an integer or a double. -/
def isNumber : Value → Bool
  | int _ => true
  | float _ => true
  | _ => false

/-- Whether the value is an array or an object. -/
def isContainer : Value → Bool
  | array _ => true
  | object _ => true
  | _ => false

/-! ## Views -/

/-- The truth value of a boolean. -/
def bool? : Value → Option Bool
  | bool b => some b
  | _ => none

/-- The integer, if the value is kept as one. -/
def int? : Value → Option Int64
  | int n => some n
  | _ => none

/-- The double nearest to a number. -/
def float? : Value → Option Float
  | int n => some (Binary64.ofInt64 n)
  | float f => some f
  | _ => none

/-- The text of a string. -/
def string? : Value → Option String
  | string s => some s
  | _ => none

/-- The instant of a date. -/
def date? : Value → Option Instant
  | date t => some t
  | _ => none

/-- The items of an array. -/
def array? : Value → Option (List Value)
  | array items => some items
  | _ => none

/-- The fields of an object. -/
def object? : Value → Option (Fields Value)
  | object fields => some fields
  | _ => none

/-- The field of an object; nothing else has fields. -/
def get? (v : Value) (name : String) : Option Value :=
  v.object?.bind (Fields.get? · name)

/-- Whether a condition with this value holds: not for null, false and zero. -/
def isTruthy : Value → Bool
  | null => false
  | bool b => b
  | int n => n != 0
  | float f => Binary64.isNaN f || Binary64.scaled f != 0
  | _ => true

end Value

end DocStore
