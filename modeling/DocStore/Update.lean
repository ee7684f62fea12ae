import DocStore.Filter.Basic
import DocStore.Value.Edit
import DocStore.Number.Checked

/-!
# Updates

An update is a list of changes to fields, applied in order. Applying it gives the new fields and
says whether anything changed and which top-level fields were named. The id of a document cannot
be changed.
-/

set_option autoImplicit false

namespace DocStore

/-- A change to one field. -/
inductive Change where
  | set (path : String) (v : Value)
  /-- Adds a number; a missing field becomes that number. -/
  | increment (path : String) (delta : Value)
  | unset (path : String)
  /-- Appends items to an array; a missing field becomes the array of them. -/
  | push (path : String) (items : List Value)

/-- The path of a change. -/
def Change.path : Change → String
  | set path _ => path
  | increment path _ => path
  | unset path => path
  | push path _ => path

/-- Changes in the order in which they are applied. -/
structure Update where
  changes : List Change

/-- What an update did. -/
structure UpdateEffect where
  modified : Bool
  /-- The top-level fields that the update names, in order of first mention. -/
  touched : List String

/-! ## Applying changes -/

namespace Change

/-- Equality of content and kind: an integer and a double differ. -/
def identical (a b : Value) : Bool := a.kind == b.kind && Value.equal a b

/-- The sum of a field and a number. Integers stay integers while the sum fits. -/
def sum (path : String) (current delta : Value) : Result Value :=
  match current, delta with
  | .int a, .int b =>
    match Checked.add? a b with
    | some n => .ok (.int n)
    | none => .ok (.float (Binary64.ofInt64 a + Binary64.ofInt64 b))
  | _, _ =>
    match current.float? with
    | none => .error (.type (.incrementTarget path current.kind))
    | some a =>
      let total := a + delta.float?.getD 0
      if Binary64.isFinite total then .ok (.float total)
      else .error (.arithmetic (.incrementOverflow path))

/-- Writes a value unless it is there already, and says whether it was written. -/
def assign (m : Fields Value) (path : String) (v : Value) : Result (Fields Value × Bool) :=
  if (Fields.lookup? m path).any (identical · v) then .ok (m, false)
  else (Fields.setPath? m path v).map fun m => (m, true)

/-- Applies a change and says whether the fields changed. -/
def apply (m : Fields Value) : Change → Result (Fields Value × Bool)
  | set path v => assign m path v
  | increment path delta => do
    let next ← match Fields.lookup? m path with
      | none => pure delta
      | some current => sum path current delta
    assign m path next
  | unset path =>
    match Fields.erasePath m path with
    | (m, some _) => .ok (m, true)
    | (m, none) => .ok (m, false)
  | push path items =>
    match Fields.place? m path with
    | some place =>
      match place.held with
      | .array existing => .ok (place.put (.array (existing ++ items)), !items.isEmpty)
      | other => .error (.type (.pushTarget path other.kind))
    | none => (Fields.setPath? m path (.array items)).map fun m => (m, true)

end Change

namespace Update

/-- A list with a name at its end, unless it is in the list. -/
def mention (names : List String) (name : String) : List String :=
  if names.contains name then names else names ++ [name]

/-- The top-level fields that changes name, in order of first mention. -/
def touched (changes : List Change) : List String :=
  changes.foldl (fun names c => mention names (Segments.top c.path)) []

/-- Applies changes in order and says whether one of them changed the fields. -/
def applyChanges (m : Fields Value) : List Change → Result (Fields Value × Bool)
  | [] => .ok (m, false)
  | c :: rest => do
    let (m, now) ← c.apply m
    let (m, later) ← applyChanges m rest
    return (m, now || later)

/-- Applies an update to the fields of a document. -/
def apply (u : Update) (m : Fields Value) : Result (Fields Value × UpdateEffect) := do
  let (m, modified) ← applyChanges m u.changes
  return (m, { modified, touched := touched u.changes })

/-- Writes values at their paths. -/
def seed (m : Fields Value) : List (String × Value) → Result (Fields Value)
  | [] => .ok m
  | (path, v) :: rest => do seed (← Fields.setPath? m path v) rest

/-- The fields of the document that is inserted when nothing passes a filter: what the filter
demands, then updated. -/
def newFields (u : Update) (filter : Filter) : Result (Fields Value) := do
  let m ← seed [] filter.equalitySeeds
  return (← u.apply m).1

/-! ## Reading -/

/-- Refuses paths with empty segments and those into the id. -/
def checkPath (op path : String) : Result Unit :=
  if !Segments.isPath path then .error (.query (.updatePath op path))
  else if Segments.top path == idField then .error (.query (.updateId op))
  else .ok ()

/-- The items that an operand of `$push` stands for: those under `$each`, or itself. -/
def pushItems (raw : Json) : List Value :=
  match raw with
  | .object [("$each", .array items)] => Value.ofJsonItems items
  | _ => [Value.ofJson raw]

/-- Reads a change of one field. -/
def readChange (op path : String) (raw : Json) : Result Change :=
  match op with
  | "$set" => .ok (.set path (Value.ofJson raw))
  | "$inc" =>
    let delta := Value.ofJson raw
    if delta.isNumber then .ok (.increment path delta)
    else .error (.type (.increment path delta.kind))
  | "$unset" => .ok (.unset path)
  | "$push" => .ok (.push path (pushItems raw))
  | _ =>
    if Segments.isOperator op then .error (.query (.unknownUpdate op))
    else .error (.query (.replacementUpdate op))

/-- Reads the fields of one operator, after the changes that were read before. -/
def readFields (op : String) (before : List Change) : List (String × Json) → Result (List Change)
  | [] => .ok before
  | (path, raw) :: rest => do
    checkPath op path
    let c ← readChange op path raw
    if before.any (·.path == path) then .error (.query (.conflictingUpdate path))
    else readFields op (before ++ [c]) rest

/-- Reads operators, after the changes that were read before. -/
def readOperators (before : List Change) : List (String × Json) → Result (List Change)
  | [] => .ok before
  | (op, operand) :: rest =>
    match operand with
    | .object fields => do readOperators (← readFields op before fields) rest
    | _ => .error (.query (.updateFields op))

/-- The update that JSON stands for. -/
def ofJson (j : Json) : Result Update :=
  match j with
  | .object [] => .error (.query .emptyUpdate)
  | .object operators => (readOperators [] operators).map Update.mk
  | _ => .error (.query .updateShape)

end Update

end DocStore
