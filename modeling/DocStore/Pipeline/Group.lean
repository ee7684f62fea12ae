import DocStore.Accumulator
import DocStore.Pipeline.Names
import DocStore.Pipeline.Run

/-!
# Groups

The stage `$group` gathers the documents whose ids have the same canonical key, in the order in
which the keys first appear.
-/

set_option autoImplicit false

namespace DocStore

/-- What a `$group` stage does. -/
structure GroupStage where
  id : Expr
  accumulators : Accumulators

namespace GroupStage

/-- The id of a document's group with the inputs that it gives there. -/
def keyed (id : Expr) (accs : Accumulators) (doc : Value) : Result (Value × Inputs) := do
  let key ← id.eval doc
  let inputs ← accs.inputs doc
  return (key, inputs)

/-- Groups under their canonical keys: the id of the first document and the states. -/
abbrev Groups := Fields (Value × List Accumulation)

/-- Adds the inputs of a document to its group, which is a new one if there is none of its key. -/
def gather (accs : Accumulators) (groups : Groups) (key : Value) (inputs : Inputs) : Groups :=
  let k := key.canonicalKey
  let (id, states) := (Fields.get? groups k).getD (key, accs.start)
  Fields.insert groups k (id, Accumulators.feed states inputs)

/-- The rows of documents with their group ids. -/
def rows (accs : Accumulators) (keyed : List (Value × Inputs)) : List Value :=
  let groups := keyed.foldl (fun groups e => gather accs groups e.1 e.2) []
  groups.map fun g => .object (accs.finish g.2.2 [(idField, g.2.1)])

/-- Runs the stage at a position of a pipeline. -/
def run (s : GroupStage) (index : Nat) (docs : List Value) : Run (List Value) := do
  let keyed ← Run.keepAll index "$group" (docs.map (keyed s.id s.accumulators))
  let out := rows s.accumulators keyed
  Run.note .debug s!"$group produced {out.length} groups from {docs.length} documents"
  return out

/-- Reads a `$group` stage. -/
def read {m : Type → Type} [Reading m] : Json → m GroupStage
  | .object fields => do
    let id ← StageFault.require (Fields.get? fields idField) .groupId
    let id ← Expr.read id
    let accumulators ← Accumulators.read [idField] fields
    return { id, accumulators }
  | _ => StageFault.fail (.notAnObject "$group")

end GroupStage

end DocStore
