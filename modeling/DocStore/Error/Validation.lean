import DocStore.Value.Json

/-!
# Violations of a schema

What is wrong with a document, and at which field. Fields inside an object or array are named by
their path from the document.
-/

set_option autoImplicit false

namespace DocStore

/-- The constraint that a value of the right kind breaks. -/
inductive Constraint where
  | shorterThan (length least : Nat)
  | longerThan (length most : Nat)
  | noMatch (pattern : String)
  | below (v : Value) (minimum : Float)
  | above (v : Value) (maximum : Float)
  | notAllowed (v : Value)
  | tooFewItems (count least : Nat)
  | tooManyItems (count most : Nat)
  | duplicateItem (item : Value)

/-- The wording of a broken constraint. -/
def Constraint.message : Constraint → String
  | shorterThan length least => s!"length {length} is below minimum {least}"
  | longerThan length most => s!"length {length} exceeds maximum {most}"
  | noMatch pattern => "value does not match pattern '" ++ pattern ++ "'"
  | below v minimum => v.text ++ " is below minimum " ++ Decimal.Layout.plain.format minimum
  | above v maximum => v.text ++ " exceeds maximum " ++ Decimal.Layout.plain.format maximum
  | notAllowed v => v.text ++ " is not one of the allowed values"
  | tooFewItems count least => s!"{count} items, minimum is {least}"
  | tooManyItems count most => s!"{count} items, maximum is {most}"
  | duplicateItem item => "duplicate item " ++ item.text

/-- A violation of a schema. -/
inductive ValidationError where
  | missingField (field : String)
  | wrongKind (field : String) (expected : List Kind) (found : Kind)
  | broken (field : String) (constraint : Constraint)
  | unknownField (field : String)

namespace ValidationError

/-- The path of the offending field. -/
def field : ValidationError → String
  | missingField field => field
  | wrongKind field _ _ => field
  | broken field _ => field
  | unknownField field => field

/-- The same violation seen from the object that holds the offending one in a field. -/
def nestedUnder (parent : String) : ValidationError → ValidationError
  | missingField field => missingField (parent ++ "." ++ field)
  | wrongKind field expected found => wrongKind (parent ++ "." ++ field) expected found
  | broken field constraint => broken (parent ++ "." ++ field) constraint
  | unknownField field => unknownField (parent ++ "." ++ field)

/-- The wording of a violation. -/
def message : ValidationError → String
  | missingField field => "missing required field '" ++ field ++ "'"
  | wrongKind field expected found =>
    "field '" ++ field ++ "' expected type " ++ "|".intercalate (expected.map Kind.name) ++
      ", found " ++ found.name
  | broken field constraint => "field '" ++ field ++ "' violates constraint: " ++ constraint.message
  | unknownField field => "unknown field '" ++ field ++ "' is not allowed by the schema"

end ValidationError

end DocStore
