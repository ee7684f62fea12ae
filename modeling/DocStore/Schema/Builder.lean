import DocStore.Schema.Reader

/-!
# Building schemas

Schemas built step by step: a base for the kind of a field, then constraints on it.
-/

set_option autoImplicit false

namespace DocStore

namespace FieldSchema

/-! ## Bases -/

/-- A field whose value has one of the given kinds. -/
def ofKinds (kinds : List Kind) : FieldSchema := mk { kinds } none none

/-- A field of any kind. -/
def any : FieldSchema := ofKinds []

/-- A field that holds a string. -/
def string : FieldSchema := ofKinds [.string]

/-- A field that holds an integer. -/
def int : FieldSchema := ofKinds [.int]

/-- A field that holds a number. -/
def number : FieldSchema := ofKinds [.int, .float]

/-- A field that holds a boolean. -/
def bool : FieldSchema := ofKinds [.bool]

/-- A field that holds a date. -/
def date : FieldSchema := ofKinds [.date]

/-- A field that holds an array of items that satisfy a schema. -/
def array (items : FieldSchema) : FieldSchema := mk { kinds := [.array] } (some items) none

/-- A field that holds an object that satisfies a schema. -/
def object (s : Schema) : FieldSchema := mk { kinds := [.object] } none (some s)

/-! ## Constraints -/

/-- Changes the constraints on the value itself. -/
def constrain (change : ValueConstraints → ValueConstraints) : FieldSchema → FieldSchema
  | mk own items object => mk (change own) items object

/-- Allows null too, where kinds are restricted at all. -/
def nullable (f : FieldSchema) : FieldSchema :=
  f.constrain fun c =>
    if c.kinds.isEmpty || c.kinds.contains .null then c else { c with kinds := c.kinds ++ [.null] }

/-- Sets the least number. -/
def min (n : Float) (f : FieldSchema) : FieldSchema :=
  f.constrain fun c => { c with minimum := some n }

/-- Sets the greatest number. -/
def max (n : Float) (f : FieldSchema) : FieldSchema :=
  f.constrain fun c => { c with maximum := some n }

/-- Sets the least length. -/
def minLength (n : Nat) (f : FieldSchema) : FieldSchema :=
  f.constrain fun c => { c with minLength := some n }

/-- Sets the greatest length. -/
def maxLength (n : Nat) (f : FieldSchema) : FieldSchema :=
  f.constrain fun c => { c with maxLength := some n }

/-- Sets the pattern of strings. -/
def pattern (source : String) (f : FieldSchema) : Result FieldSchema := do
  let p ← SchemaPattern.compile source
  return f.constrain fun c => { c with pattern := some p }

/-- Sets the values that are allowed. -/
def oneOf (vs : List Value) (f : FieldSchema) : FieldSchema :=
  f.constrain fun c => { c with allowed := some vs }

/-- Demands that the items of an array differ. -/
def unique (f : FieldSchema) : FieldSchema := f.constrain fun c => { c with uniqueItems := true }

end FieldSchema

namespace Schema

/-- Demands a field. -/
def require (s : Schema) (name : String) : Schema :=
  { s with required := s.required ++ [name] }

/-- Declares a field. -/
def declare (s : Schema) (name : String) (f : FieldSchema) : Schema :=
  { s with properties := Fields.insert s.properties name f }

/-- Allows or forbids fields that are not declared. -/
def allowAdditional (s : Schema) (allow : Bool) : Schema := { s with additional := allow }

end Schema

end DocStore
