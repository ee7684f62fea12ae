import DocStore.Value.Edit
import DocStore.Value.Json
import DocStore.Value.Order

/-!
# Documents

A document is an object with an id. The field `_id` holds the id and comes first. A document that
comes without an id gets one from an `IdSource`.
-/

set_option autoImplicit false

namespace DocStore

/-- The id that a value of `_id` stands for. A whole double counts as the integer. -/
def DocumentId.ofValue : Value → Result DocumentId
  | .int n => .ok (.int n)
  | .string s => .ok (.string s)
  | .float f =>
    if Binary64.isIntegral f then .ok (.int (Binary64.saturate f))
    else .error (.type (.idKind .float))
  | other => .error (.type (.idKind other.kind))

/-- The ids that a generator gives, in order. -/
structure IdStream where
  nth : Nat → DocumentId

/-- The generator that gives texts. -/
instance : Coe (Nat → String) IdStream := ⟨fun text => ⟨fun n => .generated (text n)⟩⟩

/-- Where new ids come from. -/
inductive IdSource where
  /-- Integers in sequence, after the one given last. -/
  | sequential (last : Int64)
  /-- The ids of a generator, from the first that it has not given yet. -/
  | generated (ids : IdStream) (used : Nat)

namespace IdSource

/-- The next id. Integers go round at the end of their range. -/
def next : IdSource → DocumentId × IdSource
  | sequential last => (.int (last + 1), sequential (last + 1))
  | generated ids used => (ids.nth used, generated ids (used + 1))

end IdSource

/-- A document. -/
structure Document where
  id : DocumentId
  fields : Fields Value

namespace Document

/-- The document of an id and further fields; a field `_id` among them does not count. -/
def make (id : DocumentId) (fields : Fields Value) : Document :=
  { id, fields := (idField, id.toValue) :: Fields.erase fields idField }

/-- The document that an object stands for, with the id that it names. -/
def ofFields (fields : Fields Value) (ids : IdSource) : Result Document × IdSource :=
  match Fields.get? fields idField with
  | some raw => ((DocumentId.ofValue raw).map fun id => make id fields, ids)
  | none => (.ok (make ids.next.1 fields), ids.next.2)

/-- The document that a value stands for; only an object can be one. An id is drawn if the object
names none. -/
def ofValue (v : Value) (ids : IdSource) : Result Document × IdSource :=
  match v with
  | .object fields => ofFields fields ids
  | other => (.error (.type (.documentKind other.kind)), ids)

/-- The document that a stored object stands for; it must name its id. -/
def ofStored? (v : Value) : Option Document := do
  let fields ← v.object?
  let raw ← Fields.get? fields idField
  let id ← (DocumentId.ofValue raw).toOption
  return make id fields

/-- The document as a value. -/
def toValue (d : Document) : Value := .object d.fields

/-- Equality of documents: ids of one key and fields of equal content. -/
def equal (a b : Document) : Bool := a.id.same b.id && a.toValue.equal b.toValue

/-- The value at a path, from the field of its first segment on down; the empty path leads
nowhere. -/
def get? (d : Document) (path : String) : Option Value :=
  if path.isEmpty then none
  else
    match Segments.ofPath path with
    | [] => none
    | first :: rest => do
      let v ← Fields.get? d.fields first
      rest.foldlM (fun v segment => v.child? segment) v

/-- Whether a document has a field. -/
def contains (d : Document) (name : String) : Bool := Fields.contains d.fields name

end Document

end DocStore
