import DocStore.Pipeline.Group
import DocStore.Query.Sorting

/-!
# Buckets

The stage `$bucket` gathers documents by the interval between two boundaries that their group value
lies in, `$bucketAuto` by cutting the documents in the order of their group values into runs of
about the same length.
-/

set_option autoImplicit false

namespace DocStore

/-! ## Buckets between boundaries -/

/-- What a `$bucket` stage does. -/
structure BucketStage where
  groupBy : Expr
  /-- At least two scalars of one class in ascending order. -/
  boundaries : List Value
  /-- The id of the row for what lies in no bucket. -/
  fallback : Option Value
  output : Accumulators

namespace BucketStage

/-- Whether a value lies in the interval that ends before its upper boundary. -/
def inside (v lower upper : Value) : Bool :=
  (Value.compareSameClass? v lower).any Ordering.isGE &&
    (Value.compareSameClass? v upper).any Ordering.isLT

/-- The number of the bucket that holds a value. -/
def locate? (v : Value) : List Value → Option Nat
  | lower :: upper :: rest =>
    if inside v lower upper then some 0 else (locate? v (upper :: rest)).map (· + 1)
  | _ => none

/-- The bucket of a document, none being the one for the rest, with the inputs that it gives
there. -/
def place (s : BucketStage) (doc : Value) : Result (Option Nat × Inputs) := do
  let (key, inputs) ← GroupStage.keyed s.groupBy s.output doc
  let bucket := locate? key s.boundaries
  if bucket.isNone && s.fallback.isNone then .error (StageFault.toError (.outside key))
  else return (bucket, inputs)

/-- What the buckets have gathered, those between boundaries and the one for the rest. A bucket
holds nothing before its first document. -/
structure Filling where
  between : List (Option (List Accumulation))
  rest : Option (List Accumulation)

/-- So many empty buckets between boundaries, and an empty one for the rest. -/
def Filling.empty (count : Nat) : Filling where
  between := List.replicate count none
  rest := none

/-- Feeds the inputs of a document to what a bucket has gathered. -/
def feed (accs : Accumulators) (states : Option (List Accumulation)) (inputs : Inputs) :
    Option (List Accumulation) :=
  some (Accumulators.feed (states.getD accs.start) inputs)

/-- Adds the inputs of a document to its bucket. -/
def gather (accs : Accumulators) (filling : Filling) : Option Nat × Inputs → Filling
  | (some n, inputs) => { filling with between := filling.between.modify n (feed accs · inputs) }
  | (none, inputs) => { filling with rest := feed accs filling.rest inputs }

/-- The row of a bucket, unless nothing was gathered there. -/
def row? (accs : Accumulators) (id : Value) (states : Option (List Accumulation)) : Option Value :=
  states.map fun states => .object (accs.finish states [(idField, id)])

/-- The rows of placed documents: the buckets in ascending order, and then the rest. -/
def rows (s : BucketStage) (placed : List (Option Nat × Inputs)) : List Value :=
  let filling := placed.foldl (gather s.output) (.empty (s.boundaries.length - 1))
  (s.boundaries.zip filling.between).filterMap (fun b => row? s.output b.1 b.2) ++
    (s.fallback.bind fun label => row? s.output label filling.rest).toList

/-- Runs the stage at a position of a pipeline. -/
def run (s : BucketStage) (index : Nat) (docs : List Value) : Run (List Value) := do
  let placed ← Run.keepAll index "$bucket" (docs.map s.place)
  let out := s.rows placed
  Run.note .debug s!"$bucket emitted {out.length} buckets from {docs.length} documents"
  return out

end BucketStage

/-! ## Buckets of about the same size -/

/-- What a `$bucketAuto` stage does. -/
structure BucketAutoStage where
  groupBy : Expr
  /-- The greatest number of buckets, not zero. -/
  buckets : Nat
  output : Accumulators

namespace BucketAutoStage

/-- Two group values that have no order between them, if there are such: the first that is not
null, and another. -/
def unordered? (keys : List Value) : Option (Value × Value) :=
  match keys.filter fun k => !k.isNull with
  | [] => none
  | first :: others =>
    (others.find? fun k => (Value.compareSameClass? first k).isNone).map (first, ·)

/-- The sizes that so many buckets have when nothing keeps documents together: the first ones take
what is left over. -/
def sizes (buckets total : Nat) : List Nat :=
  (List.range buckets).map fun i => total / buckets + if i < total % buckets then 1 else 0

variable {α : Type}

/-- Cuts a sorted list into runs of the given sizes. A run goes on to the end of what compares equal
to its last key, and the last run takes all that is left. -/
def cut : List Nat → List (Value × α) → List (List (Value × α))
  | _, [] => []
  | [], _ => []
  | [_], rest => [rest]
  | size :: sizes, rest =>
    match (rest.take size).getLast? with
    | none => cut sizes rest
    | some last =>
      let same := fun e : Value × α => (Value.compare e.1 last.1).isEq
      (rest.take size ++ (rest.drop size).takeWhile same) ::
        cut sizes ((rest.drop size).dropWhile same)

/-- The rows of runs: the id holds the least key and that of the next run, or the greatest key. -/
def rows (accs : Accumulators) : List (List (Value × Inputs)) → List Value
  | [] => []
  | run :: rest =>
    let least := (run.head?.map (·.1)).getD .null
    let greatest := (run.getLast?.map (·.1)).getD .null
    let next := (rest.head?.bind (·.head?)).map (·.1)
    let id : Value := .object [("min", least), ("max", next.getD greatest)]
    accs.row id (run.map (·.2)) :: rows accs rest

/-- Runs the stage at a position of a pipeline. -/
def run (s : BucketAutoStage) (index : Nat) (docs : List Value) : Run (List Value) := do
  let keyed ← Run.keepAll index "$bucketAuto" (docs.map (GroupStage.keyed s.groupBy s.output))
  if keyed.isEmpty then return []
  match unordered? (keyed.map (·.1)) with
  | some (a, b) => Run.fail (StageFault.toError (.notOrdered a b))
  | none =>
    let sorted := Sorting.sortBy (fun a b => Value.compare a.1 b.1) keyed
    let out := rows s.output (cut (sizes (min s.buckets sorted.length) sorted.length) sorted)
    Run.note .debug s!"$bucketAuto emitted {out.length} buckets from {docs.length} documents"
    return out

end BucketAutoStage

/-! ## Reading -/

namespace BucketStage

variable {m : Type → Type} [Reading m]

/-- Refuses keys that a stage does not have. -/
def checkKeys (stage : String) (allowed : List String) (fields : Fields Json) : m Unit :=
  match (Fields.keys fields).find? fun k => !allowed.contains k with
  | some key => StageFault.fail (.extraKey stage key)
  | none => pure ()

/-- Reads the accumulators of a stage that counts documents if it has none. -/
def readOutput (stage : String) (fields : Fields Json) : m Accumulators :=
  match Fields.get? fields "output" with
  | none => pure Accumulators.count
  | some (.object output) => Accumulators.read [] output
  | some _ => StageFault.fail (.bucketOutput stage)

/-- Refuses boundaries that are not ascending, or null. -/
def checkBoundaries : List Value → m Unit
  | a :: b :: rest =>
    if Value.compareSameClass? a b == some .lt && !a.isNull then checkBoundaries (b :: rest)
    else StageFault.fail (.boundaryOrder a b)
  | _ => pure ()

/-- Refuses the id of the rest if it lies between the boundaries. -/
def checkFallback (boundaries : List Value) : Option Value → m Unit
  | none => pure ()
  | some label =>
    match boundaries.head?, boundaries.getLast? with
    | some first, some last =>
      if inside label first last then StageFault.fail (.defaultInside label) else pure ()
    | _, _ => pure ()

/-- Reads a `$bucket` stage. -/
def read : Json → m BucketStage
  | .object fields => do
    checkKeys "$bucket" ["groupBy", "boundaries", "default", "output"] fields
    let groupBy ← StageFault.require (Fields.get? fields "groupBy") (.groupBy "$bucket")
    let raw ← StageFault.require ((Fields.get? fields "boundaries").bind Json.array?) .boundaries
    let boundaries := Value.ofJsonItems raw
    if boundaries.length < 2 then StageFault.fail .fewBoundaries
    else
      checkBoundaries boundaries
      let fallback := (Fields.get? fields "default").map Value.ofJson
      checkFallback boundaries fallback
      let groupBy ← Expr.read groupBy
      let output ← readOutput "$bucket" fields
      return { groupBy, boundaries, fallback, output }
  | _ => StageFault.fail (.notAnObject "$bucket")

end BucketStage

/-- Reads a `$bucketAuto` stage. -/
def BucketAutoStage.read {m : Type → Type} [Reading m] : Json → m BucketAutoStage
  | .object fields => do
    BucketStage.checkKeys "$bucketAuto" ["groupBy", "buckets", "output"] fields
    let groupBy ← StageFault.require (Fields.get? fields "groupBy") (.groupBy "$bucketAuto")
    let raw := (Fields.get? fields "buckets").bind Json.toUInt64?
    let buckets ← StageFault.require (raw.filter (0 < ·)) .bucketCount
    let groupBy ← Expr.read groupBy
    let output ← BucketStage.readOutput "$bucketAuto" fields
    return { groupBy, buckets, output }
  | _ => StageFault.fail (.notAnObject "$bucketAuto")

end DocStore
