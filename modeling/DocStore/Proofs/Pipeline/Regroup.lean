import DocStore.Proofs.Pipeline.Group
import DocStore.Proofs.Pipeline.Run
import DocStore.Proofs.Text.Segments
import DocStore.Proofs.Value.Key

/-!
# Unwinding undone by grouping

Unwinding the array in a field gives each document once for each item. Grouping what it gives by the
ids of the documents, and listing the items of each group, gives the arrays back:
`Pipeline.run_regroup`.
-/

set_option autoImplicit false

namespace DocStore

/-! ## Names of fields -/

namespace Segments

variable {f : String}

theorem isFieldName_iff :
    isFieldName f = true ↔ f ≠ "" ∧ isOperator f = false ∧ '.' ∉ f.toList := by
  rw [isFieldName, String.contains_char_eq]
  simp [and_assoc]

theorem isFieldName_idField : isFieldName idField = true := isFieldName_iff.2 (by decide)

/-- The name of a field is a path of one segment. -/
theorem ofPath_of_isFieldName (h : isFieldName f = true) : ofPath f = [f] :=
  ofPath_of_not_mem (isFieldName_iff.1 h).2.2

theorem isPath_of_isFieldName (h : isFieldName f = true) : isPath f = true := by
  rw [isPath, ofPath_of_isFieldName h]
  simpa using (isFieldName_iff.1 h).1

end Segments

/-- Ids with one canonical key are stored as one value. -/
theorem DocumentId.toValue_eq_of_canonicalKey {a b : DocumentId}
    (h : a.toValue.canonicalKey = b.toValue.canonicalKey) : a.toValue = b.toValue := by
  have hscalar (id : DocumentId) : id.toValue.isContainer = false := by cases id <;> rfl
  have hkeyable (id : DocumentId) : id.toValue.Keyable := by cases id <;> trivial
  have hexact (a b : DocumentId) : Value.Exact a.toValue.leaves b.toValue.leaves := by
    intro n f _ hf
    cases b <;> simp [toValue, Value.leaves] at hf
  have hequal := (Value.keyTree_scalar_iff (hscalar a) (hkeyable a) (hkeyable b) (hexact a b)
    (hexact b a)).1 (Value.canonicalKey_eq_iff_keyTree.1 h)
  cases a <;> cases b <;> simp_all [toValue, Value.equal, Value.equalNumbers]

/-! ## References to a field -/

/-- The reference to a field. -/
def reference (f : String) : String := "$" ++ f

section Reference

variable {f : String}

theorem toList_reference : (reference f).toList = '$' :: f.toList := by
  rw [reference, String.toList_append]
  rfl

theorem UnwindStage.reference?_reference (h : Segments.isFieldName f = true) :
    UnwindStage.reference? (reference f) = some f := by
  rw [reference?, toList_reference]
  simp [String.ofList_toList, Segments.isPath_of_isFieldName h]

theorem Expr.always_read_reference (h : Segments.isFieldName f = true) :
    Always (Expr.read (.string (reference f))) (.field f) := by
  obtain ⟨-, hoperator, -⟩ := Segments.isFieldName_iff.1 h
  refine Expr.always_read_text ?_
  rw [Expr.readText]
  split
  · rename_i cs hcs
    -- The name would have a dollar sign of its own.
    rw [toList_reference, List.cons.injEq] at hcs
    rw [Segments.isOperator, hcs.2] at hoperator
    cases hoperator
  · rename_i cs _ hcs
    rw [toList_reference, List.cons.injEq] at hcs
    obtain rfl := hcs.2
    rw [String.ofList_toList, if_pos (Segments.isPath_of_isFieldName h)]
    exact always_pure _
  · rename_i hreference
    exact absurd toList_reference (hreference f.toList)

end Reference

namespace Value

variable {f : String} {m : Fields Value}

/-- The name of a field leads to the field. -/
theorem getPath?_of_isFieldName (h : Segments.isFieldName f = true) :
    (object m).getPath? f = Fields.get? m f := by
  rw [getPath?, Segments.ofPath_of_isFieldName h]
  exact Option.bind_fun_some _

theorem resolve?_of_isFieldName (h : Segments.isFieldName f = true) :
    (object m).resolve? f = Fields.get? m f := by
  rw [resolve?, Segments.ofPath_of_isFieldName h]
  exact Option.bind_fun_some _

end Value

theorem Fields.setPath?_of_isFieldName {f : String} (h : Segments.isFieldName f = true)
    (m : Fields Value) (v : Value) : setPath? m f v = .ok (insert m f v) := by
  rw [setPath?, setPath, Segments.ofPath_of_isFieldName h]
  rfl

namespace Pipeline

/-! ## The stages -/

/-- A document with an id and items in a field. -/
structure Listed (f : String) (d : Value) : Prop where
  id : ∃ key : DocumentId, d.get? idField = some key.toValue
  items : ∃ v rest, d.get? f = some (.array (v :: rest))

/-- The id of a document. -/
def idOf (d : Value) : Value := (d.get? idField).getD .null

/-- The items in a field of a document. -/
def itemsOf (f : String) (d : Value) : List Value := ((d.get? f).bind Value.array?).getD []

/-- The document with an item in the place of its items. -/
def withItem (f : String) (d v : Value) : Value := .object (Fields.insert (d.object?.getD []) f v)

/-- The stage that unwinds a field. -/
def unwindStage (f : String) : UnwindStage := { path := f, keepEmpty := false }

/-- The stage that lists what is in a field, by ids. -/
def listStage (f : String) : GroupStage where
  id := .field idField
  accumulators := [(f, { op := .push, input := .field f })]

/-- The pipeline that unwinds a field and groups by ids again. -/
def regroup (f : String) : Json :=
  .array [.object [("$unwind", .string (reference f))],
    .object [("$group", .object [(idField, .string (reference idField)),
      (f, .object [("$push", .string (reference f))])])]]

variable {f : String} {d : Value}

theorem Listed.exists_object (h : Listed f d) : ∃ m, d = .object m := by
  obtain ⟨key, hkey⟩ := h.id
  obtain ⟨m, hm, -⟩ := Option.bind_eq_some_iff.1 hkey
  cases d with
  | object fields => exact ⟨fields, rfl⟩
  | _ => cases hm

theorem Listed.get?_id (h : Listed f d) : d.get? idField = some (idOf d) := by
  obtain ⟨key, hkey⟩ := h.id
  rw [idOf, hkey, Option.getD_some]

theorem Listed.get?_items (h : Listed f d) : d.get? f = some (.array (itemsOf f d)) := by
  obtain ⟨v, rest, hitems⟩ := h.items
  rw [itemsOf, hitems]
  rfl

theorem Listed.itemsOf_ne_nil (h : Listed f d) : itemsOf f d ≠ [] := by
  obtain ⟨v, rest, hitems⟩ := h.items
  rw [itemsOf, hitems]
  exact List.cons_ne_nil v rest

section Name

variable (hf : Segments.isFieldName f = true)
include hf

theorem unwind_eq (h : Listed f d) :
    (unwindStage f).unwind d = (itemsOf f d).map fun v => .ok (withItem f d v) := by
  obtain ⟨m, rfl⟩ := h.exists_object
  have hget : Fields.get? m f = some (.array (itemsOf f (.object m))) := h.get?_items
  obtain ⟨v, rest, hitems⟩ := List.exists_cons_of_ne_nil h.itemsOf_ne_nil
  have hplace (v : Value) :
      UnwindStage.place f (.object m) v = .ok (withItem f (.object m) v) := by
    rw [UnwindStage.place, Fields.setPath?_of_isFieldName hf]
    rfl
  rw [UnwindStage.unwind]
  simp only [unwindStage, Value.getPath?_of_isFieldName hf, hget, hitems]
  exact List.map_congr_left fun v _ => hplace v

/-- All documents with one item each, in order. -/
theorem clean_unwind (index : Nat) {docs : List Value} (hdocs : ∀ d ∈ docs, Listed f d) :
    ((unwindStage f).run index docs).Clean
      (docs.flatMap fun d => (itemsOf f d).map (withItem f d)) := by
  have hall : docs.flatMap (unwindStage f).unwind =
      (docs.flatMap fun d => (itemsOf f d).map (withItem f d)).map .ok := by
    rw [List.map_flatMap]
    refine List.flatMap_congr fun d hd => ?_
    rw [unwind_eq hf (hdocs d hd), List.map_map]
    rfl
  rw [UnwindStage.run, hall]
  exact Run.clean_keepAll index "$unwind" _

variable (hid : f ≠ idField)
include hid

theorem keyed_withItem (h : Listed f d) (v : Value) :
    GroupStage.keyed (listStage f).id (listStage f).accumulators (withItem f d v) =
      .ok (idOf d, [some v]) := by
  obtain ⟨m, rfl⟩ := h.exists_object
  have hidget : Fields.get? m idField = some (idOf (.object m)) := h.get?_id
  have hkey : Expr.eval? (withItem f (.object m) v) (.field idField) =
      .ok (some (idOf (.object m))) := by
    rw [Expr.eval?, withItem, Value.resolve?_of_isFieldName Segments.isFieldName_idField, ← hidget]
    exact congrArg Except.ok (Fields.get?_insert_of_ne m v hid.symm)
  have hitem : Expr.eval? (withItem f (.object m) v) (.field f) = .ok (some v) := by
    rw [Expr.eval?, withItem, Value.resolve?_of_isFieldName hf, Fields.get?_insert_self]
  rw [GroupStage.keyed, listStage, Expr.eval, hkey, Accumulators.inputs, List.mapM_cons, hitem]
  rfl

omit hf in
/-- A row lists what was gathered. -/
theorem row_list (id : Value) (items : List Value) :
    (listStage f).accumulators.row id (items.map fun v => [some v]) =
      .object [(idField, id), (f, .array items)] := by
  have hpush (before items : List Value) :
      (items.map fun v => [some v]).foldl Accumulators.feed [.push before] =
        [.push (before ++ items)] := by
    induction items generalizing before with
    | nil => rw [List.append_nil, List.map_nil, List.foldl_nil]
    | cons v rest ih => exact (ih (before ++ [v])).trans (by rw [List.append_assoc]; rfl)
  have hinsert : Fields.insert [(idField, id)] f (.array items) =
      [(idField, id), (f, .array items)] := by
    rw [Fields.insert, if_neg (Ne.symm hid)]
    rfl
  have hgathered : (items.map fun v => [some v]).foldl Accumulators.feed
      (listStage f).accumulators.start = [.push items] := hpush [] items
  rw [Accumulators.row, hgathered]
  exact congrArg Value.object hinsert

theorem clean_group (index : Nat) {docs : List Value} (hdocs : ∀ d ∈ docs, Listed f d)
    (hdistinct : docs.Pairwise fun a b => a.get? idField ≠ b.get? idField) :
    ((listStage f).run index (docs.flatMap fun d => (itemsOf f d).map (withItem f d))).Clean
      (docs.map fun d => .object [(idField, idOf d), (f, .array (itemsOf f d))]) := by
  have hall : (docs.flatMap fun d => (itemsOf f d).map (withItem f d)).map
      (GroupStage.keyed (listStage f).id (listStage f).accumulators) =
        (docs.flatMap (GroupStage.block idOf
          fun d => (itemsOf f d).map fun v => [some v])).map .ok := by
    rw [List.map_flatMap, List.map_flatMap]
    refine List.flatMap_congr fun d hd => ?_
    rw [GroupStage.block, List.map_map, List.map_map, List.map_map]
    exact List.map_congr_left fun v _ => keyed_withItem hf hid (hdocs d hd) v
  have hkeys : (docs.map fun d => (idOf d).canonicalKey).Nodup := by
    refine List.pairwise_map.2 (hdistinct.imp_of_mem fun {a b} ha hb hne heq => hne ?_)
    obtain ⟨key, hkey⟩ := (hdocs a ha).id
    obtain ⟨other, hother⟩ := (hdocs b hb).id
    rw [idOf, idOf, hkey, hother] at heq
    rw [hkey, hother, DocumentId.toValue_eq_of_canonicalKey heq]
  have hrows : GroupStage.rows (listStage f).accumulators (docs.flatMap (GroupStage.block idOf
      fun d => (itemsOf f d).map fun v => [some v])) =
        docs.map fun d => .object [(idField, idOf d), (f, .array (itemsOf f d))] := by
    rw [GroupStage.rows_blocks hkeys fun d hd => by simpa using (hdocs d hd).itemsOf_ne_nil]
    exact List.map_congr_left fun d _ => row_list hid (idOf d) (itemsOf f d)
  rw [GroupStage.run, hall, ← hrows]
  exact (Run.clean_keepAll index "$group" _).bind ((Run.clean_note _ _).bind (Run.clean_ok _))

/-! ## Reading -/

theorem always_read_list : Always (GroupStage.read (.object [(idField, .string (reference idField)),
    (f, .object [("$push", .string (reference f))])])) (listStage f) := by
  obtain ⟨-, hoperator, hdot⟩ := Segments.isFieldName_iff.1 hf
  have hone : Always (Accumulators.readOne f (.object [("$push", .string (reference f))]))
      { op := .push, input := .field f } :=
    (Expr.always_read_reference hf).bind (always_pure _)
  have hreserved : ([idField].contains f) = false := by simpa using hid
  have hname : (f.contains '.' || Segments.isOperator f) = false := by
    rw [String.contains_char_eq, hoperator, Bool.or_false, decide_eq_false hdot]
  have haccs : Always (Accumulators.read [idField] [(idField, .string (reference idField)),
      (f, .object [("$push", .string (reference f))])]) (listStage f).accumulators :=
    Accumulators.always_read_reserved (by decide)
      (Accumulators.always_read_cons hreserved hname hone (always_pure []))
  exact (always_require rfl _).bind ((Expr.always_read_reference Segments.isFieldName_idField).bind
    (haccs.bind (always_pure (listStage f))))

omit hid in
theorem always_read_unwind :
    Always (UnwindStage.read (.string (reference f))) (unwindStage f) :=
  (always_pure (reference f, false)).bind
    ((always_require (UnwindStage.reference?_reference hf) _).bind (always_pure (unwindStage f)))

end Name

/-- **Grouping undoes unwinding.** Of documents with different ids that all hold items in a field,
the pipeline that unwinds the field and lists what is in it by ids is read with every cache, and
gives one row for each document in order, with its id and its items. No document fails. -/
theorem run_regroup (hf : Segments.isFieldName f = true) (hid : f ≠ idField) {docs : List Value}
    (hdocs : ∀ d ∈ docs, Listed f d)
    (hdistinct : docs.Pairwise fun a b => a.get? idField ≠ b.get? idField) (cache : PatternCache) :
    ∃ p rows, ((Pipeline.read (regroup f) : CachedReading Pipeline).run.run cache).1 = .ok p ∧
      (p.run docs).Clean rows ∧
      List.Forall₂ (fun d row => ∃ id items, d.get? idField = some id ∧
        d.get? f = some (.array items) ∧ row = .object [(idField, id), (f, .array items)])
        docs rows := by
  have hunwind : Always (readStage (.object [("$unwind", .string (reference f))]))
      (.step (.unwind (unwindStage f))) :=
    always_readStage (by decide) rfl ((always_read_unwind hf).bind (always_pure _))
  have hgroup : Always (readStage (.object [("$group", .object
      [(idField, .string (reference idField)), (f, .object [("$push", .string (reference f))])])]))
      (.step (.group (listStage f))) :=
    always_readStage (by decide) rfl ((always_read_list hf hid).bind (always_pure _))
  have hread : (Pipeline.read (regroup f) : CachedReading Pipeline).run.run cache =
      (.ok [.step (.unwind (unwindStage f)), .step (.group (listStage f))], cache) :=
    run_readStages_cons (hunwind cache) (run_readStages_cons (hgroup cache) rfl)
  refine ⟨_, docs.map fun d => .object [(idField, idOf d), (f, .array (itemsOf f d))],
    congrArg Prod.fst hread, ?_, ?_⟩
  · exact clean_runFrom_cons (clean_unwind hf 0 hdocs)
      (clean_runFrom_cons (clean_group hf hid 1 hdocs hdistinct) (Run.clean_ok _))
  · refine List.forall₂_map_right_iff.2 (List.forall₂_same.2 fun d hd => ?_)
    exact ⟨_, _, (hdocs d hd).get?_id, (hdocs d hd).get?_items, rfl⟩

/-- Documents with tags: nulls, an array and a tag that comes twice. -/
def tagged : List Value :=
  [.object [("_id", .int 2), ("tags", .array [.null, .array [.int 1], .null])],
    .object [("tags", .array [.object []]), ("_id", .string "2"), ("name", .null)]]

theorem run_regroup_tags :
    Segments.isFieldName "tags" = true ∧ "tags" ≠ idField ∧ (∀ d ∈ tagged, Listed "tags" d) ∧
    (tagged.Pairwise fun a b => a.get? idField ≠ b.get? idField) ∧
    ∃ p, ((Pipeline.read (regroup "tags") : CachedReading Pipeline).run.run .empty).1 = .ok p ∧
      (p.run tagged).Clean
        [.object [("_id", .int 2), ("tags", .array [.null, .array [.int 1], .null])],
          .object [("_id", .string "2"), ("tags", .array [.object []])]] := by
  have hf : Segments.isFieldName "tags" = true := Segments.isFieldName_iff.2 (by decide)
  have hid : "tags" ≠ idField := by decide
  have hdocs : ∀ d ∈ tagged, Listed "tags" d := by
    simp only [tagged, List.forall_mem_cons]
    exact ⟨⟨⟨.int 2, rfl⟩, ⟨_, _, rfl⟩⟩, ⟨⟨.string "2", rfl⟩, ⟨_, _, rfl⟩⟩, List.forall_mem_nil _⟩
  have hdistinct : tagged.Pairwise fun a b => a.get? idField ≠ b.get? idField := by
    have hne : (some (Value.int 2)) ≠ some (Value.string "2") := by simp
    exact List.pairwise_pair.2 hne
  obtain ⟨p, rows, hread, hclean, hrows⟩ := run_regroup hf hid hdocs hdistinct .empty
  refine ⟨hf, hid, hdocs, hdistinct, p, hread, ?_⟩
  obtain ⟨_, _, ⟨_, _, ⟨⟩, ⟨⟩, rfl⟩, hrest, rfl⟩ := List.forall₂_cons_left_iff.1 hrows
  obtain ⟨_, _, ⟨_, _, ⟨⟩, ⟨⟩, rfl⟩, hnone, rfl⟩ := List.forall₂_cons_left_iff.1 hrest
  obtain rfl := List.forall₂_nil_left_iff.1 hnone
  exact hclean

end Pipeline

end DocStore
