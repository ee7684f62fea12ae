import DocStore.Proofs.Collection.Insert

/-!
# Batches and single inserts

The measure of a batch is its `Turn`: its values inserted one by one, until one is refused. A batch
in order is its turn; a batch as a whole succeeds and fails with it, but leaves nothing of it if it
fails: `outcome_insertMany_inTurn`.
-/

set_option autoImplicit false

namespace DocStore

open DocStore.Action

namespace Collection

/-! ## One by one -/

/-- What comes of inserting values one by one. -/
structure Turn where
  /-- The ids of the documents that were inserted. -/
  inserted : List DocumentId
  /-- The refusal that ended it, if there was one. -/
  refusal : Option Error
  /-- The collection afterwards. -/
  collection : Collection

/-- Inserts values one by one, until one is refused. -/
def insertInTurn (c : Collection) : List Value → Turn
  | [] => { inserted := [], refusal := none, collection := c }
  | v :: rest =>
    match outcome c (insertOne v) with
    | (.ok id, c') =>
      let t := insertInTurn c' rest
      { t with inserted := id :: t.inserted }
    | (.error e, c') => { inserted := [], refusal := some e, collection := c' }

/-- What a batch gives that goes like a turn: the ids, or the refusal of the value behind those that
were inserted, with the ids that are kept. -/
def Turn.result (t : Turn) (kept : List DocumentId) : Result (List DocumentId) :=
  match t.refusal with
  | none => .ok t.inserted
  | some e => .error (.batch kept t.inserted.length e)

section Turns

variable {c c' : Collection} {vs : List Value} {v : Value} {doc : Document}
  {docs : List Document} {e : Error}

theorem insertInTurn_cons (h : c.prepared c.ids v = .ok doc) (rest : List Value) :
    c.insertInTurn (v :: rest) =
      { ((c.drawn v).inserted doc).insertInTurn rest with
        inserted := doc.id :: (((c.drawn v).inserted doc).insertInTurn rest).inserted } := by
  rw [insertInTurn, (yields_insertOne h).outcome]

theorem insertInTurn_refused (h : c.prepared c.ids v = .error e) (rest : List Value) :
    c.insertInTurn (v :: rest) =
      { inserted := [], refusal := some e, collection := c.drawn v } := by
  rw [insertInTurn, (yields_insertOne_error h).outcome]

/-- Values that can be prepared are inserted one by one. -/
theorem Prepares.insertInTurn (h : Prepares c c.ids vs docs c') :
    c.insertInTurn vs =
      { inserted := docs.map (·.id), refusal := none, collection := c'.insertedAll docs } := by
  induction vs generalizing c c' docs with
  | nil =>
      cases h
      rfl
  | cons v vs ih =>
      cases h with
      | @cons _ _ _ _ _ doc docs head tail =>
          rw [insertInTurn_cons head, ih (tail.inserted doc)]
          rfl

/-- The first value that cannot be prepared beside those before it ends the turn. -/
theorem Prepares.insertInTurn_stop (h : Prepares c c.ids vs docs c')
    (he : c'.prepared (idsBeside c.ids docs) v = .error e) (after : List Value) :
    c.insertInTurn (vs ++ v :: after) =
      { inserted := docs.map (·.id), refusal := some e,
        collection := (c'.insertedAll docs).drawn v } := by
  induction vs generalizing c c' docs with
  | nil =>
      cases h
      exact insertInTurn_refused he after
  | cons w vs ih =>
      cases h with
      | @cons _ _ _ _ _ doc docs head tail =>
          have hrest := ih (tail.inserted doc) he
          rw [List.cons_append, insertInTurn_cons head, hrest]
          rfl

end Turns

/-! ## Policies -/

/-- The collection with another policy for batches. -/
def under (c : Collection) (policy : InsertPolicy) : Collection :=
  { c with options := { c.options with policy } }

/-- Single documents are inserted alike under all policies. -/
theorem insertedAll_under (c : Collection) (docs : List Document) (policy : InsertPolicy) :
    (c.under policy).insertedAll docs = (c.insertedAll docs).under policy := by
  induction docs generalizing c with
  | nil => rfl
  | cons doc docs ih => exact ih (c.inserted doc)

/-- What inserting documents does not change. -/
theorem source_insertedAll (c : Collection) (docs : List Document) :
    (c.insertedAll docs).source = c.source := by
  induction docs generalizing c with
  | nil => rfl
  | cons doc docs ih => exact ih (c.inserted doc)

namespace Prepares

variable {c c' : Collection} {taken : List DocumentId} {vs : List Value} {docs : List Document}

theorem under (h : Prepares c taken vs docs c') (policy : InsertPolicy) :
    Prepares (c.under policy) taken vs docs (c'.under policy) := by
  induction h with
  | nil c taken => exact .nil _ _
  | cons head _ ih => exact .cons head ih

/-- Preparing draws ids and does nothing else. -/
theorem eq_source (h : Prepares c taken vs docs c') : c' = { c with source := c'.source } := by
  induction h with
  | nil => rfl
  | cons _ _ ih => exact ih

end Prepares

/-- **Batches are inserted one by one.** Under either policy a batch succeeds iff inserting its
values one by one does, with the same ids and the same collection. If a value is refused, both fail
at its position with the refusal as the cause. Then a batch in order leaves what was inserted before
that value; a batch as a whole leaves no trace but the ids that were drawn. -/
theorem outcome_insertMany_inTurn (c : Collection) (batch : List Value) :
    let t := c.insertInTurn batch
    outcome (c.under .ordered) (insertMany batch) =
        (t.result t.inserted, t.collection.under .ordered) ∧
      outcome (c.under .atomic) (insertMany batch) =
        (t.result [],
          (if t.refusal = none then t.collection
            else { c with source := t.collection.source }).under .atomic) := by
  intro t
  rcases Prepares.total_or_stops c c.ids batch with
    ⟨docs, c', h⟩ | ⟨before, v, after, docs, c', e, rfl, h, he⟩
  · have ht : t = _ := h.insertInTurn
    have hpolicy (policy : InsertPolicy) : outcome (c.under policy) (insertMany batch) =
        (.ok (docs.map (·.id)), (c'.insertedAll docs).under policy) := by
      rw [← insertedAll_under]
      exact (h.under policy).yields_insertMany.outcome
    rw [ht]
    exact ⟨hpolicy .ordered, hpolicy .atomic⟩
  · have ht : t = _ := h.insertInTurn_stop he after
    have hordered := ((h.under .ordered).yields_insertMany_ordered rfl he after).outcome
    have hatomic := ((h.under .atomic).yields_insertMany_atomic rfl he after).outcome
    have hsource : { c with source := ((c'.insertedAll docs).drawn v).source } = c'.drawn v := by
      change { c with source := (Document.ofValue v (c'.insertedAll docs).source).2 } = _
      rw [source_insertedAll, h.eq_source]
      rfl
    rw [insertedAll_under] at hordered
    rw [ht]
    refine ⟨?_, ?_⟩
    · rw [hordered, Turn.result, List.length_map]
      rfl
    · rw [hatomic, Turn.result, List.length_map, if_neg (Option.some_ne_none e), hsource]
      rfl

end Collection

end DocStore
