import DocStore.Value.Basic
import DocStore.Json.Printer
import DocStore.Calendar.Rfc3339

/-!
# Values and JSON

A date is the object with the one field `$date`, which holds a date text or a count of
milliseconds. An object of that shape whose field names no instant stays an object.
-/

set_option autoImplicit false

namespace DocStore.Value

/-- The name of the field that marks a date. -/
def dateField : String := "$date"

/-- The instant that the content of a `$date` field names. -/
def instant? : Json → Option Instant
  | .string s => Rfc3339.parse? s
  | .number n => n.toInt64?.bind fun ms => Instant.ofMillis? ms.toInt
  | _ => none

/-- The instant that an object stands for. -/
def wrappedDate? : Fields Json → Option Instant
  | [(name, content)] => if name = dateField then instant? content else none
  | _ => none

/-- The value of a JSON number: an integer if it is written as one and fits, else a double. -/
def ofNumber (n : Json.Number) : Value :=
  match n.toInt64? with
  | some i => int i
  | none => float n.toFloat

mutual

/-- The value that a JSON value stands for. -/
def ofJson : Json → Value
  | .null => null
  | .bool b => bool b
  | .number n => ofNumber n
  | .string s => string s
  | .array items => array (ofJsonItems items)
  | .object fields =>
    match wrappedDate? fields with
    | some t => date t
    | none => object (ofJsonFields fields)

/-- The values of the items of a JSON array. -/
def ofJsonItems : List Json → List Value
  | [] => []
  | j :: rest => ofJson j :: ofJsonItems rest

/-- The values of the fields of a JSON object. -/
def ofJsonFields : List (String × Json) → List (String × Value)
  | [] => []
  | (k, j) :: rest => (k, ofJson j) :: ofJsonFields rest

end

mutual

/-- The JSON form of a value. A double that is not finite has none and becomes null. -/
def toJson : Value → Json
  | null => .null
  | bool b => .bool b
  | int n => .number (.integer n.toInt)
  | float f => if Binary64.isFinite f then .number (.double f) else .null
  | string s => .string s
  | date t => .object [(dateField, .string (Rfc3339.text t))]
  | array items => .array (toJsonItems items)
  | object fields => .object (toJsonFields fields)

/-- The JSON forms of the items of an array. -/
def toJsonItems : List Value → List Json
  | [] => []
  | v :: rest => toJson v :: toJsonItems rest

/-- The JSON forms of the fields of an object. -/
def toJsonFields : List (String × Value) → List (String × Json)
  | [] => []
  | (k, v) :: rest => (k, toJson v) :: toJsonFields rest

end

/-- The JSON text of a value. -/
def text (v : Value) : String := v.toJson.render

end DocStore.Value
