import DocStore.Collection.Write
import DocStore.Proofs.Collection.Action

/-!
# What inserting does

A batch is a run of preparations, each beside the ids of those before it: `Prepares`. Staging a
batch as a whole and inserting its documents one by one go through the same preparations, so they
end with the same documents and stop at the same one.
-/

set_option autoImplicit false

namespace DocStore

open DocStore.Action

namespace Collection

/-! ## Single documents -/

theorem yields_insertOne {c : Collection} {v : Value} {doc : Document}
    (h : c.prepared c.ids v = .ok doc) :
    Yields (insertOne v) c (.ok doc.id) ((c.drawn v).inserted doc) := by
  have hprepare := (yields_prepare c.ids v c).of_eq h
  exact (yields_current c).bind (hprepare.bind ((yields_commit doc _).bind
    ((yields_logAbout _ _ _ _).bind (yields_pure _ _))))

theorem yields_insertOne_error {c : Collection} {v : Value} {e : Error}
    (h : c.prepared c.ids v = .error e) : Yields (insertOne v) c (.error e) (c.drawn v) := by
  have hprepare := (yields_prepare c.ids v c).of_eq h
  exact (yields_current c).bind hprepare.bind_error

/-- A document was inserted only if it was prepared. -/
theorem inserted_of_outcome {c c' : Collection} {v : Value} {id : DocumentId}
    (h : outcome c (insertOne v) = (.ok id, c')) :
    ∃ doc, c.prepared c.ids v = .ok doc ∧ doc.id = id ∧ c' = (c.drawn v).inserted doc := by
  cases hprepared : c.prepared c.ids v with
  | error e =>
      rw [(yields_insertOne_error hprepared).outcome] at h
      cases h
  | ok doc =>
      rw [(yields_insertOne hprepared).outcome] at h
      cases h
      exact ⟨doc, rfl, rfl, rfl⟩

/-! ## Batches -/

/-- The collection with more documents. -/
def insertedAll (c : Collection) (docs : List Document) : Collection := docs.foldl inserted c

/-- Values are prepared in order, each beside the given ids and those of the documents before it.
All that changes on the way is where ids are drawn. -/
inductive Prepares :
    Collection → List DocumentId → List Value → List Document → Collection → Prop
  | nil (c : Collection) (taken : List DocumentId) : Prepares c taken [] [] c
  | cons {c c' : Collection} {taken : List DocumentId} {v : Value} {vs : List Value}
      {doc : Document} {docs : List Document} (head : c.prepared taken v = .ok doc)
      (tail : Prepares (c.drawn v) (doc.id :: taken) vs docs c') :
      Prepares c taken (v :: vs) (doc :: docs) c'

@[simp] theorem documents_insertedAll (c : Collection) (docs : List Document) :
    (c.insertedAll docs).documents = c.documents ++ docs := by
  induction docs generalizing c with
  | nil => simp [insertedAll]
  | cons doc docs ih =>
      change ((c.inserted doc).insertedAll docs).documents = _
      rw [ih, documents_inserted, List.append_assoc, List.singleton_append]

/-- The ids that documents leave beside others, the last one first. -/
def idsBeside (taken : List DocumentId) (docs : List Document) : List DocumentId :=
  docs.foldl (fun ids d => d.id :: ids) taken

theorem isIn_idsBeside (id : DocumentId) (taken : List DocumentId) (docs : List Document) :
    id.isIn (idsBeside taken docs) = (id.isIn taken || id.isIn (docs.map (·.id))) := by
  induction docs generalizing taken with
  | nil => simp [idsBeside]
  | cons doc docs ih =>
      have hstep : idsBeside taken (doc :: docs) = idsBeside (doc.id :: taken) docs := rfl
      rw [hstep, ih, DocumentId.isIn_cons, List.map_cons, DocumentId.isIn_cons]
      cases id.same doc.id <;> simp

@[simp] theorem ids_insertedAll (c : Collection) (docs : List Document) :
    (c.insertedAll docs).ids = idsBeside c.ids docs := by
  induction docs generalizing c with
  | nil => rfl
  | cons doc docs ih => exact ih (c.inserted doc)

namespace Prepares

variable {c c' : Collection} {taken : List DocumentId} {vs : List Value} {docs : List Document}

theorem length_eq (h : Prepares c taken vs docs c') : docs.length = vs.length := by
  induction h with
  | nil => rfl
  | cons _ _ ih => simp [ih]

theorem storage_eq (h : Prepares c taken vs docs c') : c'.storage = c.storage := by
  induction h with
  | nil => rfl
  | cons _ _ ih => exact ih

theorem documents_eq (h : Prepares c taken vs docs c') : c'.documents = c.documents :=
  congrArg Storage.documents h.storage_eq

theorem ids_eq (h : Prepares c taken vs docs c') : c'.ids = c.ids := by
  induction h with
  | nil => rfl
  | cons _ _ ih => exact ih

/-- Prepared documents are those that the values stand for. -/
theorem ofValues_eq (h : Prepares c taken vs docs c') :
    Document.ofValues vs c.source = .ok (docs, c'.source) := by
  induction h with
  | nil => rfl
  | @cons c c' taken v vs doc docs head tail ih =>
      have hrest : Document.ofValues vs (Document.ofValue v c.source).2 =
          .ok (docs, c'.source) := ih
      rw [Document.ofValues, (prepared_eq_ok head).1, hrest]
      rfl

/-- A document that is inserted meanwhile does not matter, as preparing reads the ids that it is
given and not those of the collection. -/
theorem inserted (h : Prepares c taken vs docs c') (doc : Document) :
    Prepares (c.inserted doc) taken vs docs (c'.inserted doc) := by
  induction h with
  | nil => exact .nil _ _
  | cons head _ ih => exact .cons head ih

/-- Either all values can be prepared, or there is a first one that cannot. -/
theorem total_or_stops (c : Collection) (taken : List DocumentId) (vs : List Value) :
    (∃ docs c', Prepares c taken vs docs c') ∨
      ∃ before v after docs c' e, vs = before ++ v :: after ∧ Prepares c taken before docs c' ∧
        c'.prepared (idsBeside taken docs) v = .error e := by
  induction vs generalizing c taken with
  | nil => exact .inl ⟨[], c, .nil c taken⟩
  | cons v vs ih =>
      cases hv : c.prepared taken v with
      | error e => exact .inr ⟨[], v, vs, [], c, e, rfl, .nil c taken, hv⟩
      | ok doc =>
          rcases ih (c.drawn v) (doc.id :: taken) with
            ⟨docs, c', h⟩ | ⟨before, w, after, docs, c', e, rfl, h, he⟩
          · exact .inl ⟨doc :: docs, c', .cons hv h⟩
          · exact .inr ⟨v :: before, w, after, doc :: docs, c', e, rfl, .cons hv h, he⟩

/-! ## Batches in order -/

/-- Inserting a document and going on from there. -/
private theorem yields_insertEach_cons {v : Value} {doc : Document} {vs : List Value}
    {r : Result (List DocumentId)} {inserted : List DocumentId}
    (hv : c.prepared c.ids v = .ok doc)
    (hrest : Yields (insertEach (inserted ++ [doc.id]) vs) ((c.drawn v).inserted doc) r c') :
    Yields (insertEach inserted (v :: vs)) c r c' := by
  have hprepare := (yields_prepare c.ids v c).of_eq hv
  have hnext : Yields (do
      let doc ← prepare (← current).ids v
      commit doc
      return doc.id) c (.ok doc.id) ((c.drawn v).inserted doc) :=
    (yields_current c).bind (hprepare.bind ((yields_commit doc _).bind (yields_pure doc.id _)))
  exact hnext.attempt.bind hrest

theorem yields_insertEach (h : Prepares c c.ids vs docs c') (inserted : List DocumentId) :
    Yields (insertEach inserted vs) c (.ok (inserted ++ docs.map (·.id)))
      (c'.insertedAll docs) := by
  induction vs generalizing c c' docs inserted with
  | nil =>
      cases h
      rw [List.map_nil, List.append_nil]
      exact yields_pure inserted c
  | cons v vs ih =>
      cases h with
      | @cons _ _ _ _ _ doc docs head tail =>
          have hrest := ih (tail.inserted doc) (inserted ++ [doc.id])
          rw [List.append_assoc, List.singleton_append] at hrest
          exact yields_insertEach_cons head hrest

theorem yields_insertEach_stop {v : Value} {e : Error} (h : Prepares c c.ids vs docs c')
    (he : c'.prepared (idsBeside c.ids docs) v = .error e) (inserted : List DocumentId)
    (after : List Value) :
    Yields (insertEach inserted (vs ++ v :: after)) c
      (.error (.batch (inserted ++ docs.map (·.id)) (inserted.length + docs.length) e))
      ((c'.insertedAll docs).drawn v) := by
  induction vs generalizing c c' docs inserted with
  | nil =>
      cases h
      have hprepare := yields_prepare c.ids v c
      rw [idsBeside, List.foldl_nil] at he
      rw [he] at hprepare
      refine ((yields_current c).bind hprepare.bind_error).attempt.bind
        ((yields_logAbout _ _ _ _).bind ?_)
      simpa [insertedAll] using yields_throw (.batch inserted inserted.length e) (c.drawn v)
  | cons w vs ih =>
      cases h with
      | @cons _ _ _ _ _ doc docs head tail =>
          have hrest := ih (tail.inserted doc) he (inserted ++ [doc.id])
          rw [List.append_assoc, List.singleton_append, List.length_append,
            List.length_singleton, Nat.add_assoc, Nat.add_comm 1] at hrest
          exact yields_insertEach_cons head hrest

/-! ## Batches as a whole -/

theorem yields_stageEach (h : Prepares c taken vs docs c') (index : Nat) :
    Yields (stageEach taken index vs) c (.ok docs) c' := by
  induction h generalizing index with
  | nil c taken => exact yields_pure [] c
  | @cons c c' taken v vs doc docs head tail ih =>
      have hprepare := ((yields_prepare taken v c).of_eq head).attempt
      exact hprepare.bind ((ih (index + 1)).bind (yields_pure _ _))

theorem yields_stageEach_stop {v : Value} {e : Error} (h : Prepares c taken vs docs c')
    (he : c'.prepared (idsBeside taken docs) v = .error e) (index : Nat) (after : List Value) :
    Yields (stageEach taken index (vs ++ v :: after)) c
      (.error (.batch [] (index + docs.length) e)) (c'.drawn v) := by
  induction h generalizing index with
  | nil c taken =>
      have hprepare := (yields_prepare taken v c).attempt
      rw [idsBeside, List.foldl_nil] at he
      rw [he] at hprepare
      exact hprepare.bind (yields_throw _ _)
  | @cons c c' taken w vs doc docs head tail ih =>
      have hprepare := ((yields_prepare taken w c).of_eq head).attempt
      have hrest := ih he (index + 1)
      rw [Nat.add_assoc, Nat.add_comm 1] at hrest
      exact hprepare.bind hrest.bind_error

theorem yields_commitAll (docs : List Document) (c : Collection) :
    Yields (docs.forM commit) c (.ok ()) (c.insertedAll docs) := by
  induction docs generalizing c with
  | nil => exact yields_pure () c
  | cons doc docs ih => exact (yields_commit doc c).bind (ih (c.inserted doc))

/-! ## Either policy -/

/-- **A batch that can be prepared is inserted** under either policy, with the same outcome. -/
theorem yields_insertMany (h : Prepares c c.ids vs docs c') :
    Yields (insertMany vs) c (.ok (docs.map (·.id))) (c'.insertedAll docs) := by
  have hlog : ∀ ids : List DocumentId, Yields (do
      logAbout .debug "insert_many into" s!": {ids.length} documents"
      return ids) (c'.insertedAll docs) (.ok ids) (c'.insertedAll docs) := fun ids =>
    (yields_logAbout _ _ _ _).bind (yields_pure ids _)
  refine (yields_current c).bind ?_
  cases c.options.policy with
  | ordered => exact (yields_insertEach h []).bind (hlog _)
  | atomic =>
      exact (yields_current c).bind ((yields_stageEach h 0).bind
        ((yields_commitAll docs c').bind ((yields_pure _ _).bind (hlog _))))

theorem yields_insertMany_ordered {v : Value} {e : Error} (hp : c.options.policy = .ordered)
    (h : Prepares c c.ids vs docs c') (he : c'.prepared (idsBeside c.ids docs) v = .error e)
    (after : List Value) :
    Yields (insertMany (vs ++ v :: after)) c
      (.error (.batch (docs.map (·.id)) docs.length e)) ((c'.insertedAll docs).drawn v) := by
  have hstop := yields_insertEach_stop h he [] after
  rw [List.nil_append, List.length_nil, Nat.zero_add] at hstop
  refine (yields_current c).bind ?_
  rw [hp]
  exact hstop.bind_error

theorem yields_insertMany_atomic {v : Value} {e : Error} (hp : c.options.policy = .atomic)
    (h : Prepares c c.ids vs docs c') (he : c'.prepared (idsBeside c.ids docs) v = .error e)
    (after : List Value) :
    Yields (insertMany (vs ++ v :: after)) c (.error (.batch [] docs.length e)) (c'.drawn v) := by
  have hstage := yields_stageEach_stop h he 0 after
  rw [Nat.zero_add] at hstage
  refine (yields_current c).bind ?_
  rw [hp]
  exact (yields_current c).bind hstage.bind_error

end Prepares

end Collection

end DocStore
