import DocStore.Json.Basic

/-!
# Records in JSON

A record of named settings is an object, whose unknown fields do not count, or an array of the
settings in their order, which may end early. A setting that is missing keeps its default. A choice
between names is a text, or an object with the name as its one field, which holds null.
-/

set_option autoImplicit false

namespace DocStore.Json.Record

/-- The settings that JSON gives, by name. -/
def settings? (names : List String) : Json → Option (Fields Json)
  | .object fields => some fields
  | .array items => if items.length ≤ names.length then some (names.zip items) else none
  | _ => none

/-- A setting with its default, read by `read?` if it is given. -/
def setting? {α : Type} (given : Fields Json) (name : String) (default : α)
    (read? : Json → Option α) : Option α :=
  match Fields.get? given name with
  | none => some default
  | some j => read? j

/-- Reads a setting that may be left open with null. -/
def optional? {α : Type} (read? : Json → Option α) : Json → Option (Option α)
  | .null => some none
  | j => (read? j).map some

/-- Reads a choice between names. -/
def choice? {α : Type} (choices : List (String × α)) : Json → Option α
  | .string s => choices.lookup s
  | .object [(s, .null)] => choices.lookup s
  | _ => none

/-- An optional setting as JSON, with null for none. -/
def ofOption {α : Type} (write : α → Json) : Option α → Json
  | none => .null
  | some a => write a

end DocStore.Json.Record
