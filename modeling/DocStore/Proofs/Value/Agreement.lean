import DocStore.Document.Basic
import DocStore.Proofs.Query.Dropped
import DocStore.Proofs.Value.Place

/-!
# Ways to follow a path

Filters, expressions, updates and documents follow paths in ways of their own: strictly, through
arrays, from a field on, or to a place that can be filled. Where the strict way leads somewhere, all
of them lead there and nowhere else: `Value.waysAgree`.
-/

set_option autoImplicit false

namespace DocStore

namespace Value

variable {segment : String} {segments : List String} {v w : Value}

/-! ## Through arrays -/

/-- A child that is found strictly is the only one that is found through arrays. -/
theorem children_of_child? (h : child? segment v = some w) : children segment v = [w] := by
  cases v with
  | object fields =>
      have hget : Fields.get? fields segment = some w := h
      rw [children, hget]
      rfl
  | array items =>
      obtain ⟨i, hindex, hi⟩ := Option.bind_eq_some_iff.1 h
      rw [children, hindex]
      simp [hi]
  | _ => cases h

/-- Gathering goes on with that child alone, and makes no array around what it finds. -/
theorem gather_of_child? (next : Value → Option Value) (h : child? segment v = some w) :
    gather segment next v = next w := by
  cases v with
  | object fields =>
      have hget : Fields.get? fields segment = some w := h
      rw [gather, hget, Option.bind_some]
  | array items =>
      obtain ⟨i, hindex, hi⟩ := Option.bind_eq_some_iff.1 h
      rw [gather, hindex]
      simp [hi]
  | _ => cases h

/-- **What is found strictly is all that is reached.** -/
theorem reach_of_descend? (h : descend? segments v = some w) : reach segments v = [w] := by
  induction segments generalizing v with
  | nil =>
      cases h
      rfl
  | cons segment rest ih =>
      obtain ⟨child, hchild, hrest⟩ := Option.bind_eq_some_iff.1 h
      rw [reach, children_of_child? hchild, List.flatMap_singleton, ih hrest]

theorem resolveSegments?_of_descend? (h : descend? segments v = some w) :
    resolveSegments? segments v = some w := by
  induction segments generalizing v with
  | nil => exact h
  | cons segment rest ih =>
      obtain ⟨child, hchild, hrest⟩ := Option.bind_eq_some_iff.1 h
      rw [resolveSegments?, gather_of_child? _ hchild, ih hrest]

/-! ## One segment after another -/

/-- Going from child to child is following the chain of segments. -/
theorem foldlM_child? (segments : List String) (v : Value) :
    segments.foldlM (fun v segment => child? segment v) v = descend? segments v := by
  induction segments generalizing v with
  | nil => rfl
  | cons segment rest ih =>
      rw [List.foldlM_cons, descend?]
      exact congrArg (Option.bind (child? segment v)) (funext ih)

end Value

/-- **A document finds at a path what its fields do.** -/
theorem Document.get?_eq (d : Document) {path : String} (h : path ≠ "") :
    d.get? path = Fields.getPath? d.fields path := by
  obtain ⟨rest, hrest⟩ := Fields.ofPath_eq_top_cons path
  have hnonempty : path.isEmpty = false := by simpa using h
  rw [Document.get?, hnonempty, Fields.getPath?, Value.getPath?, hrest, Value.descend?]
  exact congrArg (Option.bind (Fields.get? d.fields (Segments.top path)))
    (funext (Value.foldlM_child? rest))

/-! ## All ways -/

namespace Value

/-- The ways of following a path from an object with the given fields agree. -/
structure WaysAgree (m : Fields Value) (path : String) : Prop where
  /-- What the path leads to strictly is all that it reaches through arrays. -/
  strict : ∀ x, (object m).getPath? path = some x →
    (object m).terminals path = [x] ∧ (object m).resolve? path = some x
  /-- The path has a value, be it in arrays, iff it reaches something. -/
  resolved : ((object m).resolve? path).isSome = true ↔ (object m).terminals path ≠ []
  /-- Starting from the fields makes no difference. -/
  fields : fieldTerminals m path = (object m).terminals path
  /-- Looking up in the field of the first segment makes none. -/
  looked : Fields.lookup? m path = (object m).getPath? path
  /-- The place of the path holds what the path leads to. -/
  held : (Fields.place? m path).map Place.held = (object m).getPath? path
  /-- Filling that place is writing at the path. -/
  filled : ∀ p, Fields.place? m path = some p → ∀ w, Fields.setPath? m path w = .ok (p.put w)
  /-- A document with these fields finds it as well, unless the path is empty. -/
  document : ∀ d : Document, d.fields = m → path ≠ "" → d.get? path = (object m).getPath? path

/-- **All ways of following a path agree**, in every object and for every path. -/
theorem waysAgree (m : Fields Value) (path : String) : WaysAgree m path where
  strict x h := ⟨reach_of_descend? h, resolveSegments?_of_descend? h⟩
  resolved := by
    rw [Option.isSome_iff_ne_none]
    exact not_congr (resolve?_eq_none_iff _ path)
  fields := fieldTerminals_eq m path
  looked := Fields.lookup?_eq m path
  held := Fields.map_held_place? m path
  filled p h w := Fields.setPath?_of_place? h w
  document d hd hpath := hd ▸ d.get?_eq hpath

/-- An item is found in every way; without its index, the names of all items are gathered. -/
theorem waysAgree_tags :
    let pet : Fields Value := [("_id", int 1), ("tags", array [object [("name", string "dog")],
      object [("name", string "cat")]])]
    (object pet).terminals "tags.01.name" = [string "cat"] ∧
      (object pet).resolve? "tags.01.name" = some (string "cat") ∧
      Document.get? { id := .int 1, fields := pet } "tags.01.name" = some (string "cat") ∧
      (object pet).resolve? "tags.name" = some (array [string "dog", string "cat"]) ∧
      fieldTerminals pet "tags.name" ≠ [] := by
  intro pet
  have hitem : Segments.ofPath "tags.01.name" = ["tags", "01", "name"] := by decide
  have hall : Segments.ofPath "tags.name" = ["tags", "name"] := by decide
  have hfound : (object pet).getPath? "tags.01.name" = some (string "cat") := by
    rw [getPath?, hitem]
    rfl
  have hnames : (object pet).resolve? "tags.name" = some (array [string "dog", string "cat"]) := by
    rw [resolve?, hall]
    rfl
  obtain ⟨hterminals, hresolve⟩ := (waysAgree pet "tags.01.name").strict _ hfound
  have hdocument := (waysAgree pet "tags.01.name").document { id := .int 1, fields := pet } rfl
    (by decide)
  have hgathered := (waysAgree pet "tags.name").resolved.1 (hnames ▸ rfl)
  refine ⟨hterminals, hresolve, hdocument.trans hfound, hnames, ?_⟩
  rw [(waysAgree pet "tags.name").fields]
  exact hgathered

end Value

end DocStore
