import DocStore.Json.Record

/-!
# Options of a collection

How documents are checked against the schema, and what becomes of a batch of which one document
fails.
-/

set_option autoImplicit false

namespace DocStore

/-- How much of a document is checked after an update. -/
inductive ValidationLevel where
  /-- The whole document. -/
  | strict
  /-- The top-level fields that the update names. -/
  | relaxed
deriving DecidableEq, Repr

/-- What becomes of a write that breaks the schema. -/
inductive ValidationAction where
  /-- It is refused. -/
  | error
  /-- It is made, with a warning. -/
  | warn
deriving DecidableEq, Repr

/-- What becomes of a batch of which one document fails. -/
inductive InsertPolicy where
  /-- The documents before it are inserted. -/
  | ordered
  /-- Nothing is inserted. -/
  | atomic
deriving DecidableEq, Repr

/-- Options of a collection. -/
structure CollectionOptions where
  level : ValidationLevel := .strict
  action : ValidationAction := .error
  policy : InsertPolicy := .ordered
deriving DecidableEq, Repr

namespace CollectionOptions

/-- The names of the levels. -/
def levels : List (String × ValidationLevel) := [("strict", .strict), ("relaxed", .relaxed)]

/-- The names of the actions. -/
def actions : List (String × ValidationAction) := [("error", .error), ("warn", .warn)]

/-- The names of the policies. -/
def policies : List (String × InsertPolicy) := [("ordered", .ordered), ("atomic", .atomic)]

open Json.Record in
/-- The options that JSON stands for. -/
def ofJson? (j : Json) : Option CollectionOptions := do
  let given ← settings? ["validation_level", "validation_action", "insert_policy"] j
  return {
    level := ← setting? given "validation_level" .strict (choice? levels)
    action := ← setting? given "validation_action" .error (choice? actions)
    policy := ← setting? given "insert_policy" .ordered (choice? policies) }

/-- The options as JSON. -/
def toJson (o : CollectionOptions) : Json :=
  let level := match o.level with
    | .strict => "strict"
    | .relaxed => "relaxed"
  let action := match o.action with
    | .error => "error"
    | .warn => "warn"
  let policy := match o.policy with
    | .ordered => "ordered"
    | .atomic => "atomic"
  .object [("validation_level", .string level), ("validation_action", .string action),
    ("insert_policy", .string policy)]

end CollectionOptions

end DocStore
