import DocStore.Regex.Footprint
import DocStore.Regex.Parser
import DocStore.Schema.Basic

/-!
# Reading schemas

The declarative form of a schema: an object with `required`, `properties` and
`additionalProperties`, possibly under `$jsonSchema`. Places in it are named by their path.
-/

set_option autoImplicit false

namespace DocStore

/-- Fails for a malformed schema. -/
def SchemaFault.fail {α : Type} (f : SchemaFault) : Result α := .error (.config (.schema f))

/-- The kinds that a type name stands for. -/
def Kind.ofTypeName? : String → Option (List Kind)
  | "int" | "long" | "integer" => some [.int]
  | "double" | "decimal" => some [.float]
  | "number" => some [.int, .float]
  | "string" => some [.string]
  | "bool" | "boolean" => some [.bool]
  | "date" => some [.date]
  | "array" => some [.array]
  | "object" => some [.object]
  | "null" => some [.null]
  | _ => none

namespace SchemaPattern

/-- Compiles the pattern of a schema. -/
def compile (source : String) : Result SchemaPattern :=
  match Regex.parse? source with
  | none => (SchemaFault.malformedPattern source).fail
  | some regex =>
    if regex.fits then .ok { source, regex }
    else (SchemaFault.oversizedPattern source).fail

end SchemaPattern

namespace Schema

/-- The path of a field of the place at a path. -/
def joinPath (parent name : String) : String :=
  if parent.isEmpty then name else parent ++ "." ++ name

/-- Goes on with the value of an optional one, or fails. -/
def need {α : Type} (v : Option α) (f : SchemaFault) : Result α :=
  match v with
  | some a => .ok a
  | none => f.fail

/-- Reads an entry that may be missing. -/
def entry {α : Type} (obj : Fields Json) (name : String) (read : Json → Result α) :
    Result (Option α) :=
  match Fields.get? obj name with
  | none => .ok none
  | some j => (read j).map some

/-- Reads the type names of a place, if there are any. -/
def typeNames (obj : Fields Json) (path : String) : Result (Option (List String)) :=
  match Fields.get? obj "bsonType" <|> Fields.get? obj "type" with
  | none => .ok none
  | some (.string s) => .ok (some [s])
  | some (.array items) =>
    some <$> items.mapM fun j => need j.string? (.typeEntry path)
  | some _ => (SchemaFault.typeShape path).fail

/-- The kinds of a list of type names, each once. -/
def kindsOf (path : String) (kinds : List Kind) : List String → Result (List Kind)
  | [] => .ok kinds
  | name :: rest => do
    let more ← need (Kind.ofTypeName? name) (.unsupportedType name path)
    kindsOf path (more.foldl (fun ks k => if ks.contains k then ks else ks ++ [k]) kinds) rest

/-- Reads the constraints on a value itself. -/
def readConstraints (obj : Fields Json) (path : String) : Result ValueConstraints := do
  let names ← typeNames obj path
  let kinds ← kindsOf path [] (names.getD [])
  let count (key : String) := entry obj key fun j => need j.toUInt64? (.count path key)
  let number (key : String) := entry obj key fun j =>
    match j with
    | .number n => .ok n.toFloat
    | _ => (SchemaFault.number path key).fail
  let minLength ← count "minLength"
  let maxLength ← count "maxLength"
  let minItems ← count "minItems"
  let maxItems ← count "maxItems"
  let minimum ← number "minimum"
  let maximum ← number "maximum"
  let pattern ← entry obj "pattern" fun j => do
    SchemaPattern.compile (← need j.string? (.patternShape path))
  let allowed ← entry obj "enum" fun j => do
    return Value.ofJsonItems (← need j.array? (.allowedValues path))
  let unique ← entry obj "uniqueItems" fun j => need j.bool? (.uniqueItems path)
  return {
    kinds, minimum, maximum, pattern, allowed
    minLength := minItems <|> minLength
    maxLength := maxItems <|> maxLength
    uniqueItems := unique.getD false }

/-- Reads the names of required fields. -/
def readRequired (obj : Fields Json) (path : String) : Result (List String) := do
  let names ← entry obj "required" fun j => do
    let items ← need j.array? (.required path)
    items.mapM fun i => need i.string? (.requiredEntry path)
  return names.getD []

/-- Reads whether further fields are allowed. -/
def readAdditional (obj : Fields Json) (path : String) : Result Bool := do
  let flag ← entry obj "additionalProperties" fun j => need j.bool? (.additionalProperties path)
  return flag.getD true

/-- Whether a field says something about the fields of an object. -/
def describesObject (obj : Fields Json) : Bool :=
  ["properties", "required", "additionalProperties"].any (Fields.contains obj)

mutual

/-- Reads the constraints on a field. -/
def readField (j : Json) (path : String) : Result FieldSchema :=
  match j with
  | .object obj => do
    let own ← readConstraints obj path
    let items ← match Fields.find? obj "items" with
      | none => pure none
      | some i =>
        have := i.2
        some <$> readField i.1 (path ++ ".items")
    let object ← if describesObject obj then some <$> readBody obj path else pure none
    return .mk own items object
  | _ => (SchemaFault.property path).fail
termination_by (sizeOf j, 0)

/-- Reads the constraints on an object, whatever its type. -/
def readBody (obj : Fields Json) (path : String) : Result Schema := do
  let required ← readRequired obj path
  let properties ← match Fields.find? obj "properties" with
    | none => pure []
    | some p =>
      have := p.2
      readProperties p.1 path
  let additional ← readAdditional obj path
  return { required, properties, additional }
termination_by (sizeOf obj, 1)

/-- Reads the declared fields of an object. -/
def readProperties (j : Json) (path : String) : Result (Fields FieldSchema) :=
  match j with
  | .object props => do return Fields.ofEntries (← readEach props path)
  | _ => (SchemaFault.properties path).fail
termination_by (sizeOf j, 2)

/-- Reads declared fields one by one. -/
def readEach (props : Fields Json) (path : String) : Result (Fields FieldSchema) :=
  match props with
  | [] => .ok []
  | (name, j) :: rest => do
    let s ← readField j (joinPath path name)
    let more ← readEach rest path
    return (name, s) :: more
termination_by (sizeOf props, 3)

end

/-- Reads a schema for objects. -/
def readObject (obj : Fields Json) (path : String) : Result Schema := do
  match ← typeNames obj path with
  | some names =>
    if names.contains "object" then readBody obj path
    else (SchemaFault.notAnObjectSchema path).fail
  | none => readBody obj path

/-- The schema that JSON stands for, which may stand under `$jsonSchema`. -/
def ofJson (j : Json) : Result Schema :=
  match j with
  | .object obj =>
    match Fields.find? obj "$jsonSchema" with
    | some inner =>
      have := inner.2
      ofJson inner.1
    | none => readObject obj ""
  | _ => SchemaFault.shape.fail
termination_by sizeOf j

end Schema

end DocStore
