import DocStore.Expr.Eval
import DocStore.Expr.Reader
import DocStore.Pipeline.Names
import DocStore.Query.Projection

/-!
# Computed projections

The stage `$project` leaves paths out, or builds documents from paths that are kept and fields that
are computed; `$addFields` writes computed fields into a document. All fields are computed from the
document that comes in.
-/

set_option autoImplicit false

namespace DocStore

/-- How a field of a built document comes about. -/
inductive BuiltField where
  | kept
  | computed (e : Expr)

/-- What a `$project` stage does. -/
inductive ProjectStage where
  /-- Leaves out the id, if asked to, and then the paths. -/
  | drop (withoutId : Bool) (paths : List String)
  /-- Builds documents of the id, if asked for, and the fields in order. -/
  | build (withId : Bool) (fields : List (String × BuiltField))

namespace ProjectStage

/-! ## Projecting -/

/-- Adds a field to a built document. -/
def addField (source out : Fields Value) (path : String) : BuiltField → Result (Fields Value)
  | .kept =>
    match Projection.kept? source path with
    | some v => .ok (Projection.addKept out path v)
    | none => .ok out
  | .computed e => do
    match ← e.eval? (.object source) with
    | some v => Fields.setPath? out path v
    | none => return out

/-- Adds fields to a built document. -/
def addFields (source out : Fields Value) : List (String × BuiltField) → Result (Fields Value)
  | [] => .ok out
  | (path, field) :: rest => do
    let out ← addField source out path field
    addFields source out rest

/-- Projects a document; what is no object is left as it is. -/
def apply (s : ProjectStage) : Value → Result Value
  | .object source =>
    match s with
    | drop withoutId paths =>
      let out := if withoutId then Fields.erase source idField else source
      .ok (.object (Projection.dropPaths out paths))
    | build withId fields => do
      return .object (← addFields source (Projection.keptId withId source) fields)
  | v => .ok v

/-! ## Reading -/

/-- What a `$project` stage says about a path. -/
inductive Entry where
  | flag (on : Bool)
  | computed (e : Expr)

/-- The expression of an entry, if it has one. -/
def Entry.computed? : Entry → Option Expr
  | computed e => some e
  | flag _ => none

/-- Whether an entry leaves its path out. -/
def Entry.isDropped : Entry → Bool
  | flag on => !on
  | computed _ => false

/-- The field that an entry makes of its path. -/
def Entry.field : Entry → BuiltField
  | flag _ => .kept
  | computed e => .computed e

variable {m : Type → Type} [Reading m]

/-- Reads what is said about a path. -/
def readEntry (path : String) (j : Json) : m Entry :=
  match j with
  | .bool b => pure (.flag b)
  | .number _ => do
    return .flag (← StageFault.require (Projection.flag? j) (.projectValue path))
  | _ => do return .computed (← Expr.read j)

/-- Reads what is said about paths. -/
def readEntries : List (String × Json) → m (List (String × Entry))
  | [] => pure []
  | (path, j) :: rest =>
    if Segments.isFieldPath path then do
      let entry ← readEntry path j
      let entries ← readEntries rest
      return (path, entry) :: entries
    else StageFault.fail (.fieldName "$project" path)

/-- The stage of what is said about paths. A computed id comes first, as a stored one would. -/
def ofEntries (entries : List (String × Entry)) : Option ProjectStage :=
  let id := entries.lookup idField
  let others := entries.filter (·.1 != idField)
  let dropped := others.filter (·.2.isDropped)
  let withoutId := id.any Entry.isDropped
  match id.bind Entry.computed? with
  | some e =>
    if dropped.isEmpty then
      some (build false ((idField, .computed e) :: others.map fun f => (f.1, f.2.field)))
    else none
  | none =>
    if dropped.isEmpty && !(others.isEmpty && withoutId) then
      some (build (!withoutId) (others.map fun f => (f.1, f.2.field)))
    else if dropped.length = others.length then some (drop withoutId (others.map (·.1)))
    else none

/-- Reads a `$project` stage. -/
def read : Json → m ProjectStage
  | .object [] => StageFault.fail (.fields "$project")
  | .object fields => do
    StageFault.require (ofEntries (← readEntries fields)) .mixedProject
  | _ => StageFault.fail (.fields "$project")

end ProjectStage

/-- Fields that are computed and written into a document. -/
abbrev ComputedFields := List (String × Expr)

namespace ComputedFields

/-- The values of the fields on a document, without those that have none. -/
def values (fields : ComputedFields) (doc : Value) : Result (List (String × Value)) := do
  let vs ← fields.mapM fun f => f.2.eval? doc
  return (fields.zip vs).filterMap fun (f, v) => v.map (f.1, ·)

/-- Writes values at their paths. -/
def write (m : Fields Value) : List (String × Value) → Result (Fields Value)
  | [] => .ok m
  | (path, v) :: rest => do write (← Fields.setPath? m path v) rest

/-- Writes the fields into a document; what is no object is left as it is. -/
def apply (fields : ComputedFields) (doc : Value) : Result Value := do
  let computed ← values fields doc
  match doc with
  | .object source => return .object (← write source computed)
  | v => return v

variable {m : Type → Type} [Reading m]

/-- Reads fields one by one. -/
def readFields : List (String × Json) → m ComputedFields
  | [] => pure []
  | (path, j) :: rest =>
    if Segments.isFieldPath path then do
      let e ← Expr.read j
      let es ← readFields rest
      return (path, e) :: es
    else StageFault.fail (.fieldName "$addFields" path)

/-- Reads an `$addFields` stage. -/
def read : Json → m ComputedFields
  | .object [] => StageFault.fail (.fields "$addFields")
  | .object fields => readFields fields
  | _ => StageFault.fail (.fields "$addFields")

end ComputedFields

end DocStore
