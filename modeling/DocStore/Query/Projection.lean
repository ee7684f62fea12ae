import DocStore.Value.Edit

/-!
# Projections

A projection keeps the listed paths of a document, or leaves them out. What is kept stays nested
the way its path is; in arrays on the way the containers keep their part and the rest is dropped.
-/

set_option autoImplicit false

namespace DocStore

/-- A projection of documents. -/
inductive Projection where
  /-- Keeps the paths, and the id if asked for. -/
  | keep (paths : List String) (withId : Bool)
  /-- Leaves out the paths. -/
  | drop (paths : List String)

namespace Projection

/-! ## The part of a value at a path -/

mutual

/-- The part of a value below one segment, `next` giving the part of what is there. -/
def part (segment : String) (next : Value → Option Value) : Value → Option Value
  | .object fields =>
    ((Fields.get? fields segment).bind next).map fun v => .object [(segment, v)]
  | .array items => some (.array (partItems segment next items))
  | _ => none

/-- The parts of the containers in an array. -/
def partItems (segment : String) (next : Value → Option Value) : List Value → List Value
  | [] => []
  | v :: rest => (part segment next v).toList ++ partItems segment next rest

end

/-- The part of a value along a chain of segments. -/
def partAlong : List String → Value → Option Value
  | [], v => some v
  | segment :: rest, v => part segment (partAlong rest) v

/-- What is kept of a path, to be stored under its first segment. -/
def kept? (fields : Fields Value) (path : String) : Option Value :=
  match Segments.ofPath path with
  | [] => none
  | segment :: rest => (Fields.get? fields segment).bind (partAlong rest)

/-! ## Merging parts -/

mutual

/-- Puts a value in the place of another; objects are merged field by field. -/
def mergeValue (old : Option Value) : Value → Value
  | .object incoming =>
    match old with
    | some (.object existing) => .object (mergeFields existing incoming)
    | _ => .object incoming
  | v => v

/-- Puts fields among others. -/
def mergeFields (existing : Fields Value) : List (String × Value) → Fields Value
  | [] => existing
  | (k, v) :: rest =>
    mergeFields (Fields.insert existing k (mergeValue (Fields.get? existing k) v)) rest

end

/-- Adds what is kept of a path to what was kept before. -/
def addKept (out : Fields Value) (path : String) (v : Value) : Fields Value :=
  let name := Segments.top path
  Fields.insert out name (mergeValue (Fields.get? out name) v)

/-- The fields that keep only the given paths, after what was kept before. -/
def keepPaths (fields : Fields Value) (out : Fields Value) (paths : List String) : Fields Value :=
  paths.foldl (fun out path =>
    match kept? fields path with
    | some v => addKept out path v
    | none => out) out

/-- The id of the fields, if it is asked for and there. -/
def keptId (withId : Bool) (fields : Fields Value) : Fields Value :=
  if withId then
    match Fields.get? fields idField with
    | some id => [(idField, id)]
    | none => []
  else []

/-- The fields without the given paths. -/
def dropPaths (fields : Fields Value) (paths : List String) : Fields Value :=
  paths.foldl (fun m path => (Fields.erasePath m path).1) fields

/-- Projects the fields of an object. -/
def applyFields (p : Projection) (fields : Fields Value) : Fields Value :=
  match p with
  | keep paths withId => keepPaths fields (keptId withId fields) paths
  | drop paths => dropPaths fields paths

/-- Projects a value; what is no object is left as it is. -/
def apply (p : Projection) : Value → Value
  | .object fields => .object (p.applyFields fields)
  | v => v

/-! ## Reading -/

/-- The flag of a path: a boolean, zero or one. -/
def flag? : Json → Option Bool
  | .bool b => some b
  | .number n =>
    if Binary64.equal n.toFloat 0 then some false
    else if Binary64.equal n.toFloat 1 then some true
    else none
  | _ => none

/-- Reads the flags of the paths. -/
def readFlags : List (String × Json) → Result (List (String × Bool))
  | [] => .ok []
  | (path, j) :: rest =>
    match flag? j with
    | none => .error (.query (.projectionFlag path))
    | some b => do return (path, b) :: (← readFlags rest)

/-- The projection of paths with flags. All paths but the id must have the same flag. -/
def ofFlags (flags : List (String × Bool)) : Result Projection :=
  let paths (on : Bool) := (flags.filter fun e => e.1 != idField && e.2 == on).map (·.1)
  let id := flags.lookup idField
  let kept := paths true
  let dropped := paths false
  if !kept.isEmpty && !dropped.isEmpty then .error (.query .mixedProjection)
  else if !kept.isEmpty || (id == some true && dropped.isEmpty) then
    .ok (.keep kept (id != some false))
  else .ok (.drop (if id == some false then idField :: dropped else dropped))

/-- The projection that JSON stands for. -/
def ofJson : Json → Result Projection
  | .object fields => do ofFlags (← readFlags fields)
  | _ => .error (.query .projectionShape)

end Projection

end DocStore
