import DocStore.Filter.Basic
import DocStore.Pipeline.Bucket
import DocStore.Pipeline.Project
import DocStore.Pipeline.Unwind
import DocStore.Query.FindOptions

/-!
# Pipelines

A pipeline is a list of stages through which documents go. A stage is a step on a list of
documents, or a `$facet`, which runs several lists of steps on the same documents and gives what
they give in one document.
-/

set_option autoImplicit false

namespace DocStore

/-- A step on a list of documents. -/
inductive Step where
  | filter (f : Filter)
  | sort (keys : List SortKey)
  | limit (n : Nat)
  | skip (n : Nat)
  | project (s : ProjectStage)
  | addFields (fields : ComputedFields)
  | group (s : GroupStage)
  | unwind (s : UnwindStage)
  | bucket (s : BucketStage)
  | bucketAuto (s : BucketAutoStage)
  /-- The number of documents in a field, if there are any. -/
  | count (field : String)

/-- A stage of a pipeline. -/
inductive Stage where
  | step (s : Step)
  | facet (parts : List (String × List Step))

/-- The stages through which documents go, in order. -/
abbrev Pipeline := List Stage

namespace Step

/-- The name of a step. -/
def name : Step → String
  | filter _ => "$match"
  | sort _ => "$sort"
  | limit _ => "$limit"
  | skip _ => "$skip"
  | project _ => "$project"
  | addFields _ => "$addFields"
  | group _ => "$group"
  | unwind _ => "$unwind"
  | bucket _ => "$bucket"
  | bucketAuto _ => "$bucketAuto"
  | count _ => "$count"

/-- The document that counts documents. -/
def counted (field : String) (docs : List Value) : List Value :=
  if docs.isEmpty then [] else [.object [(field, .int (Int64.ofInt docs.length))]]

/-- Runs a step at a position of a pipeline. -/
def run (s : Step) (index : Nat) (docs : List Value) : Run (List Value) :=
  match s with
  | filter f => .ok (docs.filter f.isMatch)
  | sort keys => .ok (SortKey.sort keys docs)
  | limit n => .ok (docs.take n)
  | skip n => .ok (docs.drop n)
  | project s => Run.keepAll index "$project" (docs.map s.apply)
  | addFields fields => Run.keepAll index "$addFields" (docs.map fields.apply)
  | group s => s.run index docs
  | unwind s => s.run index docs
  | bucket s => s.run index docs
  | bucketAuto s => s.run index docs
  | count field => .ok (counted field docs)

end Step

namespace Run

/-- Runs a stage and logs how many documents it took and gave. -/
def traced (index : Nat) (name : String) (docs : List Value)
    (stage : Nat → List Value → Run (List Value)) : Run (List Value) := do
  let out ← stage index docs
  note .trace (s!"stage {index} " ++ name ++ s!": {docs.length} -> {out.length} documents")
  return out

end Run

namespace Stage

/-- The name of a stage. -/
def name : Stage → String
  | step s => s.name
  | facet _ => "$facet"

/-- Runs steps in order, counted from an index. -/
def runSteps (index : Nat) : List Step → List Value → Run (List Value)
  | [], docs => .ok docs
  | s :: rest, docs => do
    let docs ← Run.traced index s.name docs s.run
    runSteps (index + 1) rest docs

/-- The failure of a part as one of the stage that the part stands in. -/
def partFailure (index : Nat) (part : String) (f : StageFailure) : StageFailure :=
  { index, stage := "$facet." ++ part ++ "." ++ f.stage, error := f.error }

/-- Gathers what parts gave in one document. All parts are run, also when one of them failed. -/
def gather (index : Nat) (parts : List (String × Run (List Value))) : Run (List Value) :=
  { result := do
      let fields ← Fields.mapEntriesM (fun _ (r : Run (List Value)) => r.result) parts
      return [.object (fields.map fun f => (f.1, .array f.2))]
    failures := parts.flatMap fun p => p.2.failures.map (partFailure index p.1)
    notes := parts.flatMap fun p => p.2.notes }

/-- Runs a stage at a position of a pipeline. -/
def run (s : Stage) (index : Nat) (docs : List Value) : Run (List Value) :=
  match s with
  | step s => s.run index docs
  | facet parts => gather index (parts.map fun p => (p.1, runSteps 0 p.2 docs))

end Stage

namespace Pipeline

/-- Runs stages in order, counted from an index. -/
def runFrom (index : Nat) : Pipeline → List Value → Run (List Value)
  | [], docs => .ok docs
  | s :: rest, docs => do
    let docs ← Run.traced index s.name docs s.run
    runFrom (index + 1) rest docs

/-- Runs a pipeline on documents. -/
def run (p : Pipeline) (docs : List Value) : Run (List Value) := runFrom 0 p docs

end Pipeline

end DocStore
