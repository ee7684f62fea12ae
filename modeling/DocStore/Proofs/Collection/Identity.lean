import Mathlib.Data.List.InsertIdx
import DocStore.Proofs.Collection.Call

/-!
# Identity of documents

A collection keeps the identity of its documents twice: in the set of ids and in the field `_id` of
each document. `Coherent` says that both agree and that no id occurs twice. It holds of every
collection that calls lead to.
-/

set_option autoImplicit false

namespace DocStore

namespace Collection

/-- The ids of the documents in order. -/
def documentIds (c : Collection) : List DocumentId := c.documents.map (·.id)

/-- **The identity of documents is kept in step.** -/
structure Coherent (c : Collection) : Prop where
  /-- No two documents have the same id. -/
  distinct : c.documentIds.Pairwise fun a b => a.same b = false
  /-- The set of ids holds those of the documents and no others. -/
  ids : ∀ id : DocumentId, id.isIn c.ids = id.isIn c.documentIds
  /-- Each document has its id in its first field. -/
  idFirst : ∀ d ∈ c.documents, d.IdFirst

/-- The collections that calls start from. -/
inductive Opened : Collection → Prop
  | empty (name : String) (schema : Option Schema) (options : CollectionOptions)
      (source : IdSource) : Opened (empty name schema options source)
  | ofStorage {name : String} {storage : Storage} {schema : Option Schema}
      {options : CollectionOptions} {source : IdSource} {c : Collection} {notes : List LogEntry}
      (hbuilt : ∀ d ∈ storage.documents, d.Built)
      (h : ofStorage name storage schema options source = .ok (c, notes)) : Opened c

/-! ## Opening -/

/-- Ids can be gathered only if they are all different. -/
theorem gatherIds_eq_ok {ids out : List DocumentId} {docs : List Document}
    (h : gatherIds ids docs = .ok out) :
    (docs.map (·.id)).Pairwise (fun a b => a.same b = false) ∧
      (∀ d ∈ docs, d.id.isIn ids = false) ∧
      ∀ id : DocumentId, id.isIn out = (id.isIn ids || id.isIn (docs.map (·.id))) := by
  induction docs generalizing ids with
  | nil =>
      cases h
      exact ⟨.nil, fun _ hd => absurd hd List.not_mem_nil, fun id => by simp⟩
  | cons doc docs ih =>
      unfold gatherIds at h
      split at h
      · cases h
      · rename_i hdoc
        -- The ids gathered so far tell that the first document differs from all later ones.
        obtain ⟨hdistinct, hnew, hout⟩ := ih h
        refine ⟨List.pairwise_cons.2 ⟨?_, hdistinct⟩, ?_, ?_⟩
        · intro other hother
          obtain ⟨d, hd, rfl⟩ := List.mem_map.1 hother
          have := hnew d hd
          rw [DocumentId.isIn_cons, Bool.or_eq_false_iff] at this
          rw [DocumentId.same_comm]
          exact this.1
        · intro d hd
          rcases List.mem_cons.1 hd with rfl | hd
          · exact Bool.eq_false_iff.2 hdoc
          · have := hnew d hd
            rw [DocumentId.isIn_cons, Bool.or_eq_false_iff] at this
            exact this.2
        · intro id
          rw [hout, DocumentId.isIn_cons, List.map_cons, DocumentId.isIn_cons]
          cases id.same doc.id <;> simp

theorem Opened.coherent {c : Collection} (h : Opened c) : Coherent c := by
  cases h with
  | empty name schema options source =>
      exact ⟨.nil, fun _ => rfl, fun _ hd => absurd hd List.not_mem_nil⟩
  | @ofStorage name storage schema options source _ notes hbuilt h =>
      unfold Collection.ofStorage at h
      cases hids : gatherIds [] storage.documents with
      | error id => simp [hids] at h
      | ok ids =>
          simp only [hids] at h
          cases h
          obtain ⟨hdistinct, -, hout⟩ := gatherIds_eq_ok hids
          refine ⟨hdistinct, fun id => ?_, fun d hd => (hbuilt d hd).idFirst⟩
          rw [hout id, DocumentId.isIn_nil, Bool.false_or]
          rfl

/-! ## Moving -/

theorem Coherent.inserted {c : Collection} (h : Coherent c) {doc : Document}
    (hnew : doc.id.isIn c.ids = false) (hfirst : doc.IdFirst) : Coherent (c.inserted doc) := by
  have hids : (c.inserted doc).documentIds = c.documentIds ++ [doc.id] := by
    simp [documentIds]
  refine ⟨?_, ?_, ?_⟩
  · rw [hids]
    refine List.pairwise_append.2 ⟨h.distinct, List.pairwise_singleton _ _, ?_⟩
    intro a ha b hb
    rw [List.mem_singleton] at hb
    subst hb
    rw [h.ids, Bool.eq_false_iff] at hnew
    rw [DocumentId.same_comm, Bool.eq_false_iff]
    exact fun hsame => hnew (DocumentId.isIn_iff.2 ⟨a, ha, hsame⟩)
  · intro id
    rw [hids, DocumentId.isIn_append, ← h.ids]
    change id.isIn (doc.id :: c.ids) = _
    rw [DocumentId.isIn_cons, Bool.or_comm]
    simp
  · intro d hd
    rw [documents_inserted, List.mem_append, List.mem_singleton] at hd
    rcases hd with hd | rfl
    · exact h.idFirst d hd
    · exact hfirst

/-- A new version has the id of the one before it, so the ids do not change at all. -/
theorem Coherent.replaced {c : Collection} (h : Coherent c) {position : Nat} {old doc : Document}
    (hold : c.documents[position]? = some old) (hid : doc.id = old.id) (hfirst : doc.IdFirst) :
    Coherent (c.replaced position doc) := by
  have hids : (c.replaced position doc).documentIds = c.documentIds := by
    have hget : c.documentIds[position]? = some doc.id := by
      rw [documentIds, List.getElem?_map, hold, hid]
      rfl
    obtain ⟨_, hget⟩ := List.getElem?_eq_some_iff.1 hget
    rw [documentIds, documents_replaced, List.map_set, ← hget]
    exact List.set_getElem_self _
  refine ⟨?_, ?_, ?_⟩
  · rw [hids]
    exact h.distinct
  · intro id
    rw [hids, ← h.ids]
    unfold Collection.replaced
    split <;> rfl
  · intro d hd
    rw [documents_replaced] at hd
    rcases List.mem_or_eq_of_mem_set hd with hd | rfl
    · exact h.idFirst d hd
    · exact hfirst

theorem Coherent.removed {c : Collection} (h : Coherent c) (position : Nat) :
    Coherent (c.removed position) := by
  cases hold : c.documents[position]? with
  | none =>
      unfold Collection.removed
      rw [hold]
      exact h
  | some old =>
      have hids : (c.removed position).documentIds = c.documentIds.eraseIdx position := by
        rw [documentIds, documents_removed, documentIds, List.eraseIdx_map]
      have hget : c.documentIds[position]? = some old.id := by
        rw [documentIds, List.getElem?_map, hold]
        rfl
      refine ⟨?_, ?_, ?_⟩
      · rw [hids]
        exact h.distinct.sublist (List.eraseIdx_sublist _ _)
      · intro id
        rw [hids, DocumentId.isIn_eraseIdx h.distinct hget, ← h.ids,
          ← DocumentId.isIn_remove]
        unfold Collection.removed
        rw [hold]
      · intro d hd
        rw [documents_removed] at hd
        exact h.idFirst d (List.mem_of_mem_eraseIdx hd)

theorem Coherent.move {c c' : Collection} (hmove : Move c c') (h : Coherent c) : Coherent c' := by
  cases hmove with
  | draw source => exact ⟨h.distinct, h.ids, h.idFirst⟩
  | insert hdoc =>
      obtain ⟨hvalue, hnew, -⟩ := prepared_eq_ok hdoc
      exact h.inserted hnew (Document.Built.ofValue hvalue).idFirst
  | replace hold hstaged =>
      obtain ⟨fields, effect, -, rfl, -⟩ := staged_eq_some hstaged
      exact h.replaced hold rfl (Document.idFirst_make _ _)
  | remove position => exact h.removed position
  | @keep storage hdocs =>
      have hids : documentIds { c with storage } = c.documentIds :=
        congrArg (List.map Document.id) hdocs
      refine ⟨?_, ?_, ?_⟩
      · rw [hids]
        exact h.distinct
      · intro id
        rw [hids]
        exact h.ids id
      · intro d hd
        exact h.idFirst d (hdocs ▸ hd)

end Collection

/-- **Identity.** Whatever calls are made on a collection that was opened, each of them succeeding
or failing, no two documents have the same id, the set of ids holds exactly the ids of the
documents, and each document has its id in its first field. -/
theorem Call.coherent_runAll {c : Collection} (h : c.Opened) (calls : List (Call × PatternCache)) :
    (runAll c calls).Coherent :=
  (moves_runAll c calls).keeps Collection.Coherent.move h.coherent

theorem Call.coherent_runAll_pets :
    (runAll (.empty "pets" none {} (.sequential 0))
      [(.insertMany [.object [("name", .string "Rex")], .object [("_id", .string "cat")]], .empty),
        (.insertOne (.object [("_id", .string "cat")]), .empty),
        (.deleteOne (.object [("name", .string "Rex")]), .empty)]).Coherent :=
  coherent_runAll (.empty "pets" none {} (.sequential 0)) _

end DocStore
