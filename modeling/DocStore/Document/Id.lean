import DocStore.Value.Basic

/-!
# Document ids

An id is an integer, a text given by a caller, or a text generated for a document that came without
one. Two ids are the same key if they are stored as the same value, so the origin of a text does
not count.
-/

set_option autoImplicit false

namespace DocStore

/-- The name of the field that holds the id. -/
def idField : String := "_id"

/-- The id of a document. -/
inductive DocumentId where
  | int (n : Int64)
  | string (s : String)
  | generated (s : String)
deriving DecidableEq

namespace DocumentId

/-- The value that is stored in the field `_id`. -/
def toValue : DocumentId → Value
  | int n => .int n
  | string s => .string s
  | generated s => .string s

/-- The text of an id that is no integer. -/
def text? : DocumentId → Option String
  | int _ => none
  | string s => some s
  | generated s => some s

/-- Whether two ids are the same key. -/
def same : DocumentId → DocumentId → Bool
  | int a, int b => a == b
  | int _, _ => false
  | _, int _ => false
  | a, b => a.text? == b.text?

/-- An id as messages show it. -/
def display : DocumentId → String
  | int n => toString n.toInt
  | string s => "\"" ++ s ++ "\""
  | generated s => "ObjectId(\"" ++ s ++ "\")"

/-- Whether an id is the same key as a member of a list. -/
def isIn (id : DocumentId) (ids : List DocumentId) : Bool := ids.any (same id)

/-- The list without the ids of the same key. -/
def remove (id : DocumentId) (ids : List DocumentId) : List DocumentId :=
  ids.filter fun other => !same id other

end DocumentId

end DocStore
