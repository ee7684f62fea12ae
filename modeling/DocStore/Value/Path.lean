import DocStore.Value.Basic
import DocStore.Text.Segments

/-!
# Paths into values

`Value.getPath?` follows a path strictly: objects by name, arrays by index. `Value.terminals` and
`Value.resolve?` also follow it through arrays: a segment that is no index is applied to every
container in the array. The first lists what the path reaches, the second keeps the arrays around
it.
-/

set_option autoImplicit false

namespace DocStore.Value

/-! ## Strict access -/

/-- The child of a value that a segment addresses. -/
def child? (segment : String) : Value → Option Value
  | object fields => Fields.get? fields segment
  | array items => (Segments.index? segment).bind (items[·]?)
  | _ => none

/-- The value at the end of a chain of segments. -/
def descend? : List String → Value → Option Value
  | [], v => some v
  | segment :: rest, v => (child? segment v).bind (descend? rest)

/-- The value at a path. -/
def getPath? (v : Value) (path : String) : Option Value := descend? (Segments.ofPath path) v

/-! ## What a path reaches -/

mutual

/-- The values that one segment reaches: through an array to all containers in it, unless the
segment is an index. -/
def children (segment : String) : Value → List Value
  | object fields => (Fields.get? fields segment).toList
  | array items =>
    match Segments.index? segment with
    | some i => items[i]?.toList
    | none => childrenOfItems segment items
  | _ => []

/-- The values that one segment reaches from the items of an array. -/
def childrenOfItems (segment : String) : List Value → List Value
  | [] => []
  | v :: rest => children segment v ++ childrenOfItems segment rest

end

/-- The values that a chain of segments reaches. -/
def reach : List String → Value → List Value
  | [], v => [v]
  | segment :: rest, v => (children segment v).flatMap (reach rest)

/-- The values that a path reaches, arrays not taken apart; none if the path does not exist. -/
def terminals (v : Value) (path : String) : List Value := reach (Segments.ofPath path) v

/-- The values that a path reaches from the fields of an object. -/
def fieldTerminals (fields : Fields Value) (path : String) : List Value :=
  match Segments.ofPath path with
  | [] => []
  | segment :: rest => (Fields.get? fields segment).toList.flatMap (reach rest)

/-! ## What a path reaches, in its arrays -/

mutual

/-- Goes one segment down and on with `next`. Through an array, what is found in its containers is
gathered in an array, if there is anything. -/
def gather (segment : String) (next : Value → Option Value) : Value → Option Value
  | object fields => (Fields.get? fields segment).bind next
  | array items =>
    match Segments.index? segment with
    | some i => items[i]?.bind next
    | none =>
      match gatherItems segment next items with
      | [] => none
      | found => some (array found)
  | _ => none

/-- What is found in the items of an array. -/
def gatherItems (segment : String) (next : Value → Option Value) : List Value → List Value
  | [] => []
  | v :: rest => (gather segment next v).toList ++ gatherItems segment next rest

end

/-- What a chain of segments reaches, in the arrays on the way. -/
def resolveSegments? : List String → Value → Option Value
  | [], v => some v
  | segment :: rest, v => gather segment (resolveSegments? rest) v

/-- The value of a path: strict where it meets objects and indices, and an array of what it finds
where it meets another array. -/
def resolve? (v : Value) (path : String) : Option Value :=
  resolveSegments? (Segments.ofPath path) v

end DocStore.Value
