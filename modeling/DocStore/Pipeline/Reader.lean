import DocStore.Pipeline.Basic

/-!
# Reading pipelines

A pipeline is an array of objects with one key each, the name of a stage. An error in a stage is
reported with the position of the stage. The parts of a `$facet` are read like pipelines, but
cannot contain another one.
-/

set_option autoImplicit false

namespace DocStore

namespace Step

variable {m : Type → Type} [Reading m]

/-- Reads sort keys one by one. -/
def readSortKeys : List (String × Json) → m (List SortKey)
  | [] => pure []
  | (path, j) :: rest => do
    let flag : Option SortDirection := match j with
      | .number n =>
        if Binary64.isIntegral n.toFloat then SortDirection.ofInt? (Binary64.truncate n.toFloat)
        else none
      | _ => none
    let direction ← StageFault.require flag (.sortDirection path)
    let keys ← readSortKeys rest
    return { path, direction } :: keys

/-- Reads the keys of a `$sort` stage. -/
def readSort : Json → m (List SortKey)
  | .object [] => StageFault.fail .sort
  | .object fields => readSortKeys fields
  | _ => StageFault.fail .sort

/-- The field that a `$count` stage names. -/
def countField? (j : Json) : Option String := j.string?.filter Segments.isFieldName

/-- Reads a step of the given name, or gives none for a name that is not one of a step. -/
def read? (name : String) (spec : Json) : Option (m Step) :=
  match name with
  | "$match" => some do
    return filter (← Reading.mapError (.config <| .matchFilter ·) (Filter.read spec))
  | "$sort" => some do return sort (← readSort spec)
  | "$limit" => some do
    return limit (← StageFault.require (spec.toUInt64?.filter (0 < ·)) .limit)
  | "$skip" => some do return skip (← StageFault.require spec.toUInt64? .skip)
  | "$project" => some do return project (← ProjectStage.read spec)
  | "$addFields" => some do return addFields (← ComputedFields.read spec)
  | "$set" => some do return addFields (← ComputedFields.read spec)
  | "$group" => some do return group (← GroupStage.read spec)
  | "$unwind" => some do return unwind (← UnwindStage.read spec)
  | "$bucket" => some do return bucket (← BucketStage.read spec)
  | "$bucketAuto" => some do return bucketAuto (← BucketAutoStage.read spec)
  | "$count" => some do return count (← StageFault.require (countField? spec) .count)
  | _ => none

end Step

/-- The step of a stage that is one. -/
def Stage.step? : Stage → Option Step
  | step s => some s
  | facet _ => none

namespace Pipeline

variable {m : Type → Type} [Reading m]

/-- An error in a stage, with the position of the stage. -/
def atStage (index : Nat) : Error → Error
  | .config fault => .config (.atStage index fault)
  | other => other

mutual

/-- Reads a pipeline. -/
def read : Json → m Pipeline
  | .array items => readStages 0 items
  | _ => StageFault.fail .pipelineShape

/-- Reads stages one by one, counted from an index. -/
def readStages (index : Nat) : List Json → m Pipeline
  | [] => pure []
  | j :: rest => do
    let stage ← Reading.mapError (atStage index) (readStage j)
    let stages ← readStages (index + 1) rest
    return stage :: stages

/-- Reads a stage. -/
def readStage : Json → m Stage
  | .object [(name, spec)] =>
    if name = "$facet" then do return .facet (← readFacet spec)
    else
      match Step.read? (m := m) name spec with
      | some step => do return .step (← step)
      | none => StageFault.fail (.unknown name)
  | .object _ => StageFault.fail .severalKeys
  | _ => StageFault.fail .shape

/-- Reads a `$facet` stage. -/
def readFacet : Json → m (List (String × List Step))
  | .object [] => StageFault.fail (.fields "$facet")
  | .object parts => readParts parts
  | _ => StageFault.fail (.fields "$facet")

/-- Reads the parts of a `$facet` stage. -/
def readParts : List (String × Json) → m (List (String × List Step))
  | [] => pure []
  | (name, j) :: rest =>
    if Segments.isFieldName name then do
      let stages ← Reading.mapError (.config <| .facet name ·) (read j)
      let steps ← StageFault.require (stages.mapM Stage.step?) (.nestedFacet name)
      let parts ← readParts rest
      return (name, steps) :: parts
    else StageFault.fail (.facetName name)

end

/-- The pipeline that JSON stands for, each pattern compiled from its own source. -/
def ofJson (j : Json) : Result Pipeline := read j

end Pipeline

end DocStore
