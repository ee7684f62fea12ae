import DocStore.Error.Basic
import DocStore.Regex.Matching
import DocStore.Value.Key
import DocStore.Value.Order

/-!
# Schemas

A schema says which fields an object must have, what the values of fields must be like, and whether
there may be others. `Schema.validate` gives the first violation: required fields come first, then
the declared fields in their order, then fields that are not declared.
-/

set_option autoImplicit false

namespace DocStore

/-- A regular expression that a string must match, with its source. -/
structure SchemaPattern where
  source : String
  regex : Regex

/-- The constraints on a value itself. -/
structure ValueConstraints where
  /-- The kinds that are allowed; none listed allows all. -/
  kinds : List Kind := []
  /-- The least length of a string or array. -/
  minLength : Option Nat := none
  /-- The greatest length of a string or array. -/
  maxLength : Option Nat := none
  minimum : Option Float := none
  maximum : Option Float := none
  pattern : Option SchemaPattern := none
  allowed : Option (List Value) := none
  /-- Whether the items of an array must differ. -/
  uniqueItems : Bool := false

/-- The constraints on an object, given what constrains a field. -/
structure ObjectSchema (F : Type) where
  required : List String
  properties : List (String × F)
  /-- Whether fields that are not declared are allowed. -/
  additional : Bool

/-- The constraints on a field: on its value, on the items of an array, and on the fields of an
object. -/
inductive FieldSchema where
  | mk (own : ValueConstraints) (items : Option FieldSchema)
      (object : Option (ObjectSchema FieldSchema))

/-- A schema of documents. -/
abbrev Schema := ObjectSchema FieldSchema

/-- The outcome of a check. -/
abbrev Verdict := Except ValidationError Unit

namespace ValueConstraints

/-- Refuses a value with a broken constraint on a field. -/
def refuse (field : String) (c : Constraint) : Verdict := .error (.broken field c)

/-- Checks a bound, if there is one. -/
def bounded {β : Type} (field : String) (bound : Option β) (broken : β → Bool)
    (report : β → Constraint) : Verdict :=
  match bound with
  | none => .ok ()
  | some b => if broken b then refuse field (report b) else .ok ()

/-- Checks the kind of a value. -/
def checkKind (c : ValueConstraints) (field : String) (v : Value) : Verdict :=
  if c.kinds.isEmpty || c.kinds.contains v.kind then .ok ()
  else .error (.wrongKind field c.kinds v.kind)

/-- Checks the length of a string and its pattern. -/
def checkString (c : ValueConstraints) (field : String) (s : String) : Verdict := do
  bounded field c.minLength (s.length < ·) (.shorterThan s.length)
  bounded field c.maxLength (· < s.length) (.longerThan s.length)
  bounded field c.pattern (fun p => !p.regex.isMatch s) fun p => .noMatch p.source

/-- Checks the size of a number. -/
def checkNumber (c : ValueConstraints) (field : String) (v : Value) (n : Float) : Verdict := do
  bounded field c.minimum (fun b => Binary64.compare? n b == some .lt) (.below v)
  bounded field c.maximum (fun b => Binary64.compare? n b == some .gt) (.above v)

/-- Checks that a value is one of those allowed. -/
def checkAllowed (c : ValueConstraints) (field : String) (v : Value) : Verdict :=
  bounded field c.allowed (fun vs => !vs.any (Value.equal · v)) fun _ => .notAllowed v

/-- Checks the length of an array. -/
def checkLength (c : ValueConstraints) (field : String) (items : List Value) : Verdict := do
  bounded field c.minLength (items.length < ·) (.tooFewItems items.length)
  bounded field c.maxLength (· < items.length) (.tooManyItems items.length)

/-- The first item whose key an earlier one has. -/
def duplicate? (seen : List String) : List Value → Option Value
  | [] => none
  | v :: rest =>
    if seen.contains v.canonicalKey then some v else duplicate? (v.canonicalKey :: seen) rest

/-- Checks that the items of an array differ. -/
def checkUnique (c : ValueConstraints) (field : String) (items : List Value) : Verdict :=
  if c.uniqueItems then
    match duplicate? [] items with
    | some v => refuse field (.duplicateItem v)
    | none => .ok ()
  else .ok ()

end ValueConstraints

/-- Checks items in order, each at its index. -/
def checkItems (check : Nat → Value → Verdict) : Nat → List Value → Verdict
  | _, [] => .ok ()
  | i, v :: rest => do
    check i v
    checkItems check (i + 1) rest

/-- Checks that required fields are there. -/
def checkRequired (fields : Fields Value) : List String → Verdict
  | [] => .ok ()
  | name :: rest =>
    if Fields.contains fields name then checkRequired fields rest
    else .error (.missingField name)

/-- Checks that all fields but the id are declared. -/
def checkDeclared (declared : String → Bool) : List (String × Value) → Verdict
  | [] => .ok ()
  | (name, _) :: rest =>
    if name == idField || declared name then checkDeclared declared rest
    else .error (.unknownField name)

/-- The same verdict seen from the object that holds the checked one in a field. -/
def Verdict.nestedUnder (parent : String) : Verdict → Verdict
  | .ok () => .ok ()
  | .error e => .error (e.nestedUnder parent)

mutual

/-- Checks the value of a field. -/
def FieldSchema.check (field : String) (v : Value) : FieldSchema → Verdict
  | .mk own items object => do
    own.checkKind field v
    match v with
    | .string s => own.checkString field s
    | _ => pure ()
    match v.float? with
    | some n => own.checkNumber field v n
    | none => pure ()
    own.checkAllowed field v
    match v with
    | .array vs =>
      own.checkLength field vs
      match items with
      | some s => checkItems (fun i w => s.check (field ++ "." ++ toString i) w) 0 vs
      | none => pure ()
      own.checkUnique field vs
    | _ => pure ()
    match object, v with
    | some s, .object fields => (Schema.checkFields fields s).nestedUnder field
    | _, _ => pure ()

/-- Checks the fields of an object. -/
def Schema.checkFields (fields : Fields Value) : ObjectSchema FieldSchema → Verdict
  | { required, properties, additional } => do
    checkRequired fields required
    Schema.checkProperties fields properties
    if additional then pure ()
    else checkDeclared (fun name => properties.any (·.1 == name)) fields

/-- Checks the declared fields that an object has. -/
def Schema.checkProperties (fields : Fields Value) : List (String × FieldSchema) → Verdict
  | [] => .ok ()
  | (name, s) :: rest => do
    match Fields.get? fields name with
    | some v => s.check name v
    | none => pure ()
    Schema.checkProperties fields rest

end

namespace Schema

/-- The schema that every object satisfies. -/
def empty : Schema := { required := [], properties := [], additional := true }

/-- Checks a document; only objects can satisfy a schema. -/
def validate (s : Schema) : Value → Verdict
  | .object fields => checkFields fields s
  | v => .error (.wrongKind "" [.object] v.kind)

/-- Checks one top-level field of an object, which may be missing. -/
def checkField (s : Schema) (fields : Fields Value) (name : String) : Verdict :=
  match Fields.get? fields name, Fields.get? s.properties name with
  | none, _ => if s.required.contains name then .error (.missingField name) else .ok ()
  | some v, some f => f.check name v
  | some _, none =>
    if s.additional || name == idField then .ok () else .error (.unknownField name)

/-- Checks top-level fields of an object in order. -/
def checkNamed (s : Schema) (fields : Fields Value) : List String → Verdict
  | [] => .ok ()
  | name :: rest => do
    s.checkField fields name
    checkNamed s fields rest

/-- Checks only the given top-level fields of a document. -/
def validateFields (s : Schema) (names : List String) : Value → Verdict
  | .object fields => s.checkNamed fields names
  | v => s.validate v

end Schema

end DocStore
