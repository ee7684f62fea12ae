import DocStore.Json.Record
import DocStore.Query.Projection
import DocStore.Query.Sorting

/-!
# Options of a search

How the documents that pass a filter are sorted, cut and projected. The sort order and the
projection are checked when the search is run.
-/

set_option autoImplicit false

namespace DocStore

/-- Options of a search. -/
structure FindOptions where
  projection : Option Json := none
  /-- Paths with a direction: one upwards, minus one downwards. -/
  sort : Option (List (String × Int)) := none
  /-- The number of documents that are left out at the front, after sorting. -/
  skip : Option Nat := none
  /-- The greatest number of documents that are given. -/
  limit : Option Nat := none
  /-- An index to use; searches look at all documents anyway. -/
  hint : Option String := none
  /-- The time that the search may take, in milliseconds. -/
  maxTime : Option Nat := none

namespace FindOptions

/-- The sort keys, or an error for a direction that is none. -/
def sortKeys (o : FindOptions) : Result (List SortKey) :=
  (o.sort.getD []).mapM fun (path, dir) =>
    match SortDirection.ofInt? dir with
    | some direction => .ok { path, direction }
    | none => .error (.query (.sortDirection path dir))

/-- The projection, or an error for one that is malformed. -/
def parsedProjection (o : FindOptions) : Result (Option Projection) :=
  match o.projection with
  | none => .ok none
  | some j => (Projection.ofJson j).map some

/-- Leaves out what is skipped and cuts what exceeds the limit. -/
def page {α : Type} (limit skip : Option Nat) (l : List α) : List α :=
  let rest := l.drop (skip.getD 0)
  match limit with
  | none => rest
  | some n => rest.take n

/-! ## JSON -/

/-- The names of the options in their order. -/
def names : List String := ["projection", "sort", "skip", "limit", "hint", "max_time_ms"]

/-- Reads a path with a direction of 32 bits. -/
def sortEntry? : Json → Option (String × Int)
  | .array [.string path, .number (.integer n)] =>
    if Int32.minValue.toInt ≤ n ∧ n ≤ Int32.maxValue.toInt then some (path, n) else none
  | _ => none

/-- Reads a list of paths with directions. -/
def sortEntries? : Json → Option (List (String × Int))
  | .array items => items.mapM sortEntry?
  | _ => none

open Json.Record in
/-- The options that JSON stands for. -/
def ofJson? (j : Json) : Option FindOptions := do
  let given ← settings? names j
  return {
    projection := ← setting? given "projection" none (optional? some)
    sort := ← setting? given "sort" none (optional? sortEntries?)
    skip := ← setting? given "skip" none (optional? Json.toUInt64?)
    limit := ← setting? given "limit" none (optional? Json.toUInt64?)
    hint := ← setting? given "hint" none (optional? Json.string?)
    maxTime := ← setting? given "max_time_ms" none (optional? Json.toUInt64?) }

/-- A list of paths with directions as JSON. -/
def sortJson (entries : List (String × Int)) : Json :=
  .array (entries.map fun e => .array [.string e.1, .ofInt e.2])

open Json.Record in
/-- The options as JSON, all of them named. -/
def toJson (o : FindOptions) : Json :=
  .object [
    ("projection", ofOption id o.projection),
    ("sort", ofOption sortJson o.sort),
    ("skip", ofOption (fun n : Nat => .ofInt n) o.skip),
    ("limit", ofOption (fun n : Nat => .ofInt n) o.limit),
    ("hint", ofOption Json.string o.hint),
    ("max_time_ms", ofOption (fun n : Nat => .ofInt n) o.maxTime)]

end FindOptions

end DocStore
