import DocStore.Value.Path
import DocStore.Error.Basic

/-!
# Writing at paths

`Fields.setPath` writes a value at a path and makes the objects that are missing on the way; an
array grows up to the index that is written. `Fields.erasePath` removes the field that a path
names. A write that fails keeps what it has made on its way. `Fields.place?` finds the place that a
path leads to, to be read and filled.
-/

set_option autoImplicit false

namespace DocStore

namespace Value

/-- The greatest number of nulls that a write may put between the end of an array and its index. -/
def maxPadding : Nat := 10000

/-- The index that a segment addresses for writing, if it is one and not too far beyond the end. -/
def slot (path segment : String) (items : List Value) : Result Nat :=
  match Segments.index? segment with
  | none => .error (.type (.notAnIndex segment path))
  | some i =>
    if items.length + maxPadding ≤ i then .error (.query (.indexTooFar i path items.length))
    else .ok i

/-- The array with nulls at its end, so that it has an item at the index. -/
def padTo (i : Nat) (items : List Value) : List Value :=
  items ++ List.replicate (i + 1 - items.length) null

/-- Writes at the end of a chain of segments. The new value comes with the error that stopped the
write, if one did. -/
def write (path : String) (v : Value) : List String → Value → Value × Option Error
  | [], old => (old, none)
  | [last], object fields => (object (Fields.insert fields last v), none)
  | [last], array items =>
    match slot path last items with
    | .error e => (array items, some e)
    | .ok i => (array ((padTo i items).set i v), none)
  | [last], scalar => (scalar, some (.type (.noField last scalar.kind path)))
  | segment :: rest, object fields =>
    let next := write path v rest ((Fields.get? fields segment).getD (object []))
    (object (Fields.insert fields segment next.1), next.2)
  | segment :: rest, array items =>
    match slot path segment items with
    | .error e => (array items, some e)
    | .ok i =>
      let padded := padTo i items
      let old := match padded[i]? with
        | some null => object []
        | some w => w
        | none => object []
      let next := write path v rest old
      (array (padded.set i next.1), next.2)
  | segment :: _, scalar => (scalar, some (.type (.noPassage scalar.kind segment path)))

/-- Removes the field at the end of a chain of segments: the value without it, and what it held.
None if there is no such field; items of arrays are not removed. -/
def remove? : List String → Value → Option (Value × Value)
  | [last], object fields =>
    (Fields.get? fields last).map fun old => (object (Fields.erase fields last), old)
  | segment :: rest, object fields => do
    let child ← Fields.get? fields segment
    let (child, old) ← remove? rest child
    return (object (Fields.insert fields segment child), old)
  | segment :: next :: rest, array items => do
    let i ← Segments.index? segment
    let child ← items[i]?
    let (child, old) ← remove? (next :: rest) child
    return (array (items.set i child), old)
  | _, _ => none

end Value

namespace Fields

/-- Writes a value at a path. The fields come with the error that stopped the write, if one did. -/
def setPath (m : Fields Value) (path : String) (v : Value) : Fields Value × Option Error :=
  match Value.write path v (Segments.ofPath path) (.object m) with
  | (.object fields, e) => (fields, e)
  | (_, e) => (m, e)

/-- Writes a value at a path, or fails as a whole. -/
def setPath? (m : Fields Value) (path : String) (v : Value) : Result (Fields Value) :=
  match setPath m path v with
  | (fields, none) => .ok fields
  | (_, some e) => .error e

/-- Removes the field at a path, and gives what it held. -/
def erasePath (m : Fields Value) (path : String) : Fields Value × Option Value :=
  match Value.remove? (Segments.ofPath path) (.object m) with
  | some (.object fields, old) => (fields, some old)
  | _ => (m, none)

/-- The value at a path. -/
def getPath? (m : Fields Value) (path : String) : Option Value := Value.getPath? (.object m) path

/-- The value at a path: the field of the first segment, or what the rest of the path leads to
inside it. -/
def lookup? (m : Fields Value) (path : String) : Option Value :=
  match Segments.cut? path with
  | none => get? m path
  | some (first, rest) => (get? m first).bind (Value.getPath? · rest)

end Fields

/-! ## Places -/

/-- A place inside the fields of an object: the value there, and the fields with another value put
there. -/
structure Place where
  held : Value
  put : Value → Fields Value

/-- The place of a child of the value in a place. -/
def Place.child? (p : Place) (segment : String) : Option Place :=
  match p.held with
  | .object fields =>
    (Fields.get? fields segment).map fun v =>
      { held := v, put := fun w => p.put (.object (Fields.insert fields segment w)) }
  | .array items => do
    let i ← Segments.index? segment
    let v ← items[i]?
    return { held := v, put := fun w => p.put (.array (items.set i w)) }
  | _ => none

/-- The place that a path leads to, from the field of its first segment on down. -/
def Fields.place? (m : Fields Value) (path : String) : Option Place :=
  match Segments.ofPath path with
  | [] => none
  | first :: rest => do
    let v ← get? m first
    rest.foldlM Place.child? { held := v, put := insert m first }

end DocStore
