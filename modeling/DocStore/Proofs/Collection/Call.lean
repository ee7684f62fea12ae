import Mathlib.Logic.Relation
import DocStore.Collection.Call
import DocStore.Proofs.Collection.Action
import DocStore.Proofs.Collection.Insert
import DocStore.Proofs.Collection.Modify

/-!
# What calls do

A `Move` is one change that an operation can make to a collection, with all that was checked before
it. What every move keeps is kept by a run of them. Every call, whether it succeeds or fails, takes
a collection through a run of moves. All but a batch in order are `AllOrNothing`: if they fail, the
documents and the ids are those from before.
-/

set_option autoImplicit false

namespace DocStore

open DocStore.Action

namespace Collection

/-! ## Moves -/

/-- One change of a collection. -/
inductive Move : Collection → Collection → Prop
  /-- An id is drawn. -/
  | draw (c : Collection) (source : IdSource) : Move c { c with source }
  /-- A document that was prepared beside all ids is appended. -/
  | insert {c : Collection} {v : Value} {doc : Document} (h : c.prepared c.ids v = .ok doc) :
      Move c (c.inserted doc)
  /-- A document gives way to the version of it that an update made. -/
  | replace {c : Collection} {u : Update} {position : Nat} {old doc : Document}
      (hold : c.documents[position]? = some old) (h : c.staged u old = .ok (some doc)) :
      Move c (c.replaced position doc)
  /-- A document is removed. -/
  | remove (c : Collection) (position : Nat) : Move c (c.removed position)
  /-- The journal is changed, but not the documents. -/
  | keep {c : Collection} {storage : Storage} (h : storage.documents = c.documents) :
      Move c { c with storage }

/-- Changes one after another. -/
abbrev Moves : Collection → Collection → Prop := Relation.ReflTransGen Move

/-- What every move keeps is kept by a run of them. -/
theorem Moves.keeps {P : Collection → Prop} (hmove : ∀ {c c'}, Move c c' → P c → P c')
    {c c' : Collection} (h : Moves c c') (hc : P c) : P c' := by
  induction h with
  | refl => exact hc
  | tail _ hstep ih => exact hmove hstep ih

/-! ### Writes of operations -/

theorem moves_drawn (c : Collection) (v : Value) : Moves c (c.drawn v) := .single (.draw c _)

/-- Documents that were prepared beside all ids can be appended one by one. -/
theorem Prepares.moves {c c' : Collection} {vs : List Value} {docs : List Document}
    (h : Prepares c c.ids vs docs c') : Moves c (c'.insertedAll docs) := by
  induction vs generalizing c c' docs with
  | nil =>
      cases h
      exact .refl
  | cons v vs ih =>
      cases h with
      | @cons _ _ _ _ _ doc docs head tail =>
          have hinsert : Moves c ((c.drawn v).inserted doc) :=
            .tail (.single (.insert head)) (.draw _ _)
          have hrest : Moves ((c.drawn v).inserted doc) ((c'.inserted doc).insertedAll docs) :=
            ih (tail.inserted doc)
          exact hinsert.trans hrest

/-- Documents that were only staged leave nothing but drawn ids. -/
theorem Prepares.moves_staged {c c' : Collection} {taken : List DocumentId} {vs : List Value}
    {docs : List Document} (h : Prepares c taken vs docs c') : Moves c c' := by
  induction h with
  | nil => exact .refl
  | cons _ _ ih => exact .head (.draw _ _) ih

theorem moves_removedAll (c : Collection) (positions : List Nat) :
    Moves c (c.removedAll positions) := by
  induction positions generalizing c with
  | nil => exact .refl
  | cons p rest ih => exact .head (.remove c p) (ih (c.removed p))

/-- Checks read the schema and the options only. -/
theorem staged_replaced (c : Collection) (position : Nat) (doc : Document) :
    (c.replaced position doc).staged = c.staged := by
  unfold replaced
  split <;> rfl

/-- Versions that were staged together are still those of their documents when others have been
put in place, as no position occurs twice. -/
theorem moves_replacedAll {c : Collection} {u : Update} {changes : List (Document × Nat)}
    (hpositions : (changes.map (·.2)).Nodup)
    (h : ∀ doc position, (doc, position) ∈ changes →
      ∃ old, c.documents[position]? = some old ∧ c.staged u old = .ok (some doc)) :
    Moves c (c.replacedAll changes) := by
  induction changes generalizing c with
  | nil => exact .refl
  | cons e rest ih =>
      obtain ⟨doc, position⟩ := e
      obtain ⟨hnew, hpositions⟩ := List.nodup_cons.1 hpositions
      obtain ⟨old, hold, hstaged⟩ := h doc position List.mem_cons_self
      refine .head (.replace hold hstaged) (ih hpositions ?_)
      intro other q hq
      -- No other change is at the position that was just written.
      have hne : position ≠ q := by
        rintro rfl
        exact hnew (List.mem_map.2 ⟨_, hq, rfl⟩)
      rw [documents_replaced, List.getElem?_set_ne hne, staged_replaced]
      exact h other q (List.mem_cons_of_mem _ hq)

theorem moves_updateMany {c : Collection} {f : Filter} {u : Update}
    {changes : List (Document × Nat)} (h : c.stagedAll u (c.matching f) = .ok changes) :
    Moves c (c.replacedAll changes) := by
  have hpositions : (changes.map (·.2)).Pairwise (· < ·) :=
    (positions_matching c f).sublist (positions_stagedAll h)
  refine moves_replacedAll (u := u) (hpositions.imp Nat.ne_of_lt) ?_
  intro doc position hmem
  obtain ⟨old, hold, hstaged⟩ := mem_of_stagedAll h hmem
  exact ⟨old, (mem_matching.1 hold).1, hstaged⟩

/-- A document that was prepared beside all ids is inserted, one that was not leaves no more than
a drawn id. -/
theorem moves_prepared {c : Collection} {v : Value} {doc : Document}
    (h : c.prepared c.ids v = .ok doc) : Moves c ((c.drawn v).inserted doc) :=
  .tail (.single (.insert h)) (.draw _ _)

/-! ## All or nothing -/

/-- What a failure leaves as it was: the documents with their journal, and the ids. -/
structure Kept (c c' : Collection) : Prop where
  storage : c'.storage = c.storage
  ids : c'.ids = c.ids

theorem Kept.refl (c : Collection) : Kept c c := ⟨rfl, rfl⟩

theorem kept_drawn (c : Collection) (v : Value) : Kept c (c.drawn v) := ⟨rfl, rfl⟩

/-- An action that goes through moves, none of which shows if it fails. -/
def AllOrNothing {α : Type} (a : Action α) : Prop :=
  ∀ c, ∃ r c', Yields a c r c' ∧ Moves c c' ∧ ∀ e, r = .error e → Kept c c'

namespace AllOrNothing

variable {α : Type}

/-- The form in which the statement is proved: a success with its moves or a failure. -/
theorem of_cases {a : Action α} (h : ∀ c, (∃ x c', Yields a c (.ok x) c' ∧ Moves c c') ∨
    ∃ e c', Yields a c (.error e) c' ∧ Moves c c' ∧ Kept c c') : AllOrNothing a := by
  intro c
  rcases h c with ⟨x, c', hy, hm⟩ | ⟨e, c', hy, hm, hk⟩
  · exact ⟨.ok x, c', hy, hm, fun e he => by cases he⟩
  · exact ⟨.error e, c', hy, hm, fun _ _ => hk⟩

theorem of_looks {a : Action α} (h : Looks a) : AllOrNothing a := by
  intro c
  obtain ⟨r, hr⟩ := h c
  exact ⟨r, c, hr, .refl, fun _ _ => .refl c⟩

theorem discard {a : Action α} (h : AllOrNothing a) :
    AllOrNothing (Functor.discard a : Action Unit) := by
  intro c
  obtain ⟨r, c', hy, hm, hk⟩ := h c
  refine ⟨_, c', hy.discard, hm, ?_⟩
  intro e he
  cases r with
  | error e' => exact hk e' rfl
  | ok x => cases he

end AllOrNothing

theorem allOrNothing_insertOne (v : Value) : AllOrNothing (insertOne v) := by
  refine .of_cases fun c => ?_
  cases h : c.prepared c.ids v with
  | ok doc => exact .inl ⟨_, _, yields_insertOne h, moves_prepared h⟩
  | error e =>
      exact .inr ⟨_, _, yields_insertOne_error h, moves_drawn c v, kept_drawn c v⟩

theorem allOrNothing_upsert (f : Filter) (u : Update) : AllOrNothing (upsert f u) := by
  refine .of_cases fun c => ?_
  cases hfields : u.newFields f with
  | error e => exact .inr ⟨_, _, yields_upsert_fields_error hfields, .refl, .refl c⟩
  | ok fields =>
      cases h : c.prepared c.ids (.object fields) with
      | ok doc => exact .inl ⟨_, _, yields_upsert hfields h, moves_prepared h⟩
      | error e =>
          exact .inr ⟨_, _, yields_upsert_error hfields h, moves_drawn c _, kept_drawn c _⟩

theorem allOrNothing_updateOne (f : Filter) (u : Update) (orInsert : Bool) :
    AllOrNothing (updateOne f u orInsert) := by
  intro c
  cases hp : c.position? f with
  | some position =>
      obtain ⟨doc, hdoc, _⟩ := position?_eq_some hp
      cases h : c.staged u doc with
      | error e =>
          exact ⟨_, _, yields_updateOne_error hp hdoc h, .refl, fun _ _ => .refl c⟩
      | ok updated =>
          cases updated with
          | none =>
              exact ⟨_, _, yields_updateOne_unchanged hp hdoc h, .refl, fun _ _ => .refl c⟩
          | some updated =>
              exact ⟨_, _, yields_updateOne hp hdoc h, .single (.replace hdoc h),
                fun _ he => by cases he⟩
  | none =>
      cases orInsert with
      | false => exact ⟨_, _, yields_updateOne_none hp, .refl, fun _ _ => .refl c⟩
      | true =>
          obtain ⟨r, c', hy, hm, hk⟩ := allOrNothing_upsert f u c
          exact ⟨r, c', yields_updateOne_upsert hp hy, hm, hk⟩

theorem allOrNothing_updateMany (f : Filter) (u : Update) : AllOrNothing (updateMany f u) := by
  refine .of_cases fun c => ?_
  cases h : c.stagedAll u (c.matching f) with
  | ok changes => exact .inl ⟨_, _, yields_updateMany h, moves_updateMany h⟩
  | error e => exact .inr ⟨_, _, yields_updateMany_error h, .refl, .refl c⟩

theorem allOrNothing_deleteOne (f : Filter) : AllOrNothing (deleteOne f) := by
  refine .of_cases fun c => .inl ?_
  cases hp : c.position? f with
  | none => exact ⟨_, _, yields_deleteOne_none hp, .refl⟩
  | some position => exact ⟨_, _, yields_deleteOne hp, .single (.remove c position)⟩

theorem allOrNothing_deleteMany (f : Filter) : AllOrNothing (deleteMany f) :=
  .of_cases fun c => .inl ⟨_, _, yields_deleteMany f c, moves_removedAll c _⟩

theorem allOrNothing_flush : AllOrNothing flush :=
  .of_cases fun c => .inl ⟨_, _, yields_flush c, .single (.keep c.storage.flush_documents)⟩

theorem allOrNothing_compact : AllOrNothing compact := by
  refine .of_cases fun c => .inl ?_
  cases h : c.storage.compact? with
  | none => exact ⟨_, _, yields_compact_none h, .refl⟩
  | some result =>
      obtain ⟨stats, storage, notes⟩ := result
      exact ⟨_, _, yields_compact h, .single (.keep (Storage.compact?_documents h))⟩

/-! ## Batches -/

/-- What a batch in order leaves if it stops: the documents before the one that failed have been
inserted, and the error names them. -/
def Stopped (c : Collection) (batch : List Value) (e : Error) (c' : Collection) : Prop :=
  ∃ (docs : List Document) (source : IdSource) (cause : Error),
    docs.length < batch.length ∧ e = .batch (docs.map (·.id)) docs.length cause ∧
      Document.ofValues (batch.take docs.length) c.source = .ok (docs, source) ∧
      c'.documents = c.documents ++ docs ∧
      ∀ id : DocumentId, id.isIn c'.ids = (id.isIn c.ids || id.isIn (docs.map (·.id)))

/-- A batch goes through moves. If it fails it leaves what the policy says. -/
theorem outcome_insertMany (batch : List Value) (c : Collection) :
    ∃ r c', Yields (insertMany batch) c r c' ∧ Moves c c' ∧ ∀ e, r = .error e →
      match c.options.policy with
      | .ordered => Stopped c batch e c'
      | .atomic => Kept c c' := by
  rcases Prepares.total_or_stops c c.ids batch with
    ⟨docs, c', h⟩ | ⟨before, v, after, docs, c', cause, rfl, h, hcause⟩
  · exact ⟨_, _, h.yields_insertMany, h.moves, fun e he => by cases he⟩
  · cases hp : c.options.policy with
    | ordered =>
        -- The documents before the one that failed have been inserted.
        refine ⟨_, _, h.yields_insertMany_ordered hp hcause after,
          h.moves.tail (.draw _ _), ?_⟩
        rintro e ⟨⟩
        refine ⟨docs, c'.source, cause, ?_, rfl, ?_, ?_, ?_⟩
        · simp [h.length_eq]
        · rw [h.length_eq, List.take_left]
          exact h.ofValues_eq
        · rw [documents_drawn, documents_insertedAll, h.documents_eq]
        · intro id
          rw [ids_drawn, ids_insertedAll, h.ids_eq, isIn_idsBeside]
    | atomic =>
        -- Nothing is written before all have been prepared.
        refine ⟨_, _, h.yields_insertMany_atomic hp hcause after,
          h.moves_staged.tail (.draw _ _), fun e _ => ?_⟩
        exact ⟨h.storage_eq, h.ids_eq⟩

end Collection

namespace Call

/-! ## Reading arguments -/

/-- The actions that the arguments of a call can be read as. -/
inductive Reads : Call → Action Unit → Prop
  | insertOne (doc : Json) :
      Reads (insertOne doc) (discard (Collection.insertOne (Value.ofJson doc)))
  | insertMany (docs : List Json) :
      Reads (insertMany docs) (discard (Collection.insertMany (values docs)))
  | find (filter : Json) (options : FindOptions) (f : Filter) :
      Reads (find filter options) (discard (Collection.find f options))
  | findOne (filter : Json) (f : Filter) :
      Reads (findOne filter) (discard (Collection.findOne f))
  | count (filter : Json) (f : Filter) : Reads (count filter) (discard (Collection.count f))
  | updateOne (filter update : Json) (orInsert : Bool) (f : Filter) (u : Update) :
      Reads (updateOne filter update orInsert) (discard (Collection.updateOne f u orInsert))
  | updateMany (filter update : Json) (f : Filter) (u : Update) :
      Reads (updateMany filter update) (discard (Collection.updateMany f u))
  | deleteOne (filter : Json) (f : Filter) :
      Reads (deleteOne filter) (discard (Collection.deleteOne f))
  | deleteMany (filter : Json) (f : Filter) :
      Reads (deleteMany filter) (discard (Collection.deleteMany f))
  | aggregate (pipeline : Json) (p : Pipeline) :
      Reads (aggregate pipeline) (discard (Collection.aggregate p))
  | flush : Reads flush Collection.flush
  | compact : Reads compact (discard Collection.compact)

/-- What is read after something else was read. -/
theorem run_bind_eq_ok {α β : Type} {x : CachedReading α} {f : α → CachedReading β}
    {cache : PatternCache} {b : β} (h : ((x >>= f).run.run cache).1 = .ok b) :
    ∃ a cache', ((f a).run.run cache').1 = .ok b := by
  rw [ExceptT.run_bind, StateT.run_bind] at h
  rcases hx : x.run.run cache with ⟨r, cache'⟩
  rw [hx] at h
  cases r with
  | error e => cases h
  | ok a => exact ⟨a, cache', h⟩

theorem reads_of_read {call : Call} {cache : PatternCache} {action : Action Unit}
    (h : (call.read.run.run cache).1 = .ok action) : Reads call action := by
  cases call with
  | insertOne doc => cases h; exact .insertOne doc
  | insertMany docs => cases h; exact .insertMany docs
  | find filter options =>
      obtain ⟨f, _, h⟩ := run_bind_eq_ok h
      cases h
      exact .find filter options f
  | findOne filter =>
      obtain ⟨f, _, h⟩ := run_bind_eq_ok h
      cases h
      exact .findOne filter f
  | count filter =>
      obtain ⟨f, _, h⟩ := run_bind_eq_ok h
      cases h
      exact .count filter f
  | updateOne filter update orInsert =>
      obtain ⟨f, _, h⟩ := run_bind_eq_ok h
      obtain ⟨u, _, h⟩ := run_bind_eq_ok h
      cases h
      exact .updateOne filter update orInsert f u
  | updateMany filter update =>
      obtain ⟨f, _, h⟩ := run_bind_eq_ok h
      obtain ⟨u, _, h⟩ := run_bind_eq_ok h
      cases h
      exact .updateMany filter update f u
  | deleteOne filter =>
      obtain ⟨f, _, h⟩ := run_bind_eq_ok h
      cases h
      exact .deleteOne filter f
  | deleteMany filter =>
      obtain ⟨f, _, h⟩ := run_bind_eq_ok h
      cases h
      exact .deleteMany filter f
  | aggregate pipeline =>
      obtain ⟨p, _, h⟩ := run_bind_eq_ok h
      cases h
      exact .aggregate pipeline p
  | flush => cases h; exact .flush
  | compact => cases h; exact .compact

/-! ## Running calls -/

open Collection

/-- What a call leaves if it fails: a batch in order the documents before the one that failed, any
other call all as it was. -/
def Leaves (call : Call) (c : Collection) (e : Error) (c' : Collection) : Prop :=
  match call, c.options.policy with
  | insertMany docs, .ordered => Stopped c (values docs) e c'
  | _, _ => Kept c c'

/-- What a call does once its arguments have been read. -/
theorem Reads.outcome {call : Call} {action : Action Unit} (h : Reads call action)
    (c : Collection) :
    ∃ r c', Yields action c r c' ∧ Moves c c' ∧ ∀ e, r = .error e → call.Leaves c e c' := by
  cases h with
  | insertOne doc => exact (allOrNothing_insertOne _).discard c
  | insertMany docs =>
      obtain ⟨r, c', hy, hm, hfail⟩ := outcome_insertMany (values docs) c
      refine ⟨_, c', hy.discard, hm, ?_⟩
      intro e he
      cases r with
      | ok x => cases he
      | error e' =>
          cases he
          have := hfail e rfl
          unfold Leaves
          cases hp : c.options.policy <;> simpa [hp] using this
  | find filter options f => exact (AllOrNothing.of_looks (looks_find f options)).discard c
  | findOne filter f => exact (AllOrNothing.of_looks (looks_findOne f)).discard c
  | count filter f => exact (AllOrNothing.of_looks (looks_count f)).discard c
  | updateOne filter update orInsert f u =>
      exact (allOrNothing_updateOne f u orInsert).discard c
  | updateMany filter update f u => exact (allOrNothing_updateMany f u).discard c
  | deleteOne filter f => exact (allOrNothing_deleteOne f).discard c
  | deleteMany filter f => exact (allOrNothing_deleteMany f).discard c
  | aggregate pipeline p => exact (AllOrNothing.of_looks (looks_aggregate p)).discard c
  | flush => exact allOrNothing_flush c
  | compact => exact allOrNothing_compact.discard c

/-- A call either fails before the collection is looked at, or does what its action does. -/
theorem run_cases (call : Call) (cache : PatternCache) (c : Collection) :
    (∃ e, (call.read.run.run cache).1 = .error e ∧ call.run cache c = (.error e, c)) ∨
      ∃ action, Reads call action ∧ ∀ r c', Yields action c r c' → call.run cache c = (r, c') := by
  unfold run
  cases hread : (call.read.run.run cache).1 with
  | error e => exact .inl ⟨e, rfl, rfl⟩
  | ok action =>
      refine .inr ⟨action, reads_of_read hread, ?_⟩
      intro r c' hy
      exact Prod.ext hy.runOn.1 hy.runOn.2

/-- Every call takes a collection through moves. -/
theorem moves_run (call : Call) (cache : PatternCache) (c : Collection) :
    Moves c (call.run cache c).2 := by
  rcases run_cases call cache c with ⟨e, -, h⟩ | ⟨action, hreads, h⟩
  · rw [h]
  · obtain ⟨r, c', hy, hm, _⟩ := hreads.outcome c
    rw [h r c' hy]
    exact hm

theorem moves_runAll (c : Collection) (calls : List (Call × PatternCache)) :
    Moves c (runAll c calls) := by
  induction calls generalizing c with
  | nil => exact .refl
  | cons e rest ih => exact (moves_run e.1 e.2 c).trans (ih _)

/-- **Failures.** A call that fails leaves the documents and the set of ids as they were. The only
exception is a batch in order, which leaves the documents before the one that failed. -/
theorem leaves_of_run_error {call : Call} {cache : PatternCache} {c c' : Collection} {e : Error}
    (h : call.run cache c = (.error e, c')) : call.Leaves c e c' := by
  rcases run_cases call cache c with ⟨e', hread, hrun⟩ | ⟨action, hreads, hrun⟩
  · obtain ⟨-, rfl⟩ := Prod.mk.inj (hrun.symm.trans h)
    cases call with
    | insertMany docs => cases hread
    | _ => exact .refl c
  · obtain ⟨r, c₁, hy, -, hfail⟩ := hreads.outcome c
    obtain ⟨rfl, rfl⟩ := Prod.mk.inj ((hrun r c₁ hy).symm.trans h)
    exact hfail e rfl

theorem leaves_of_run_error_repeatedId :
    Stopped (.empty "pets" none {} (.sequential 0))
      (values [.object [("name", .string "Rex")], .object [("_id", .string "cat")],
        .object [("_id", .string "cat")]])
      (.batch [.int 1, .string "cat"] 2 (.duplicateId (.string "cat")))
      ((insertMany [.object [("name", .string "Rex")], .object [("_id", .string "cat")],
        .object [("_id", .string "cat")]]).run .empty (.empty "pets" none {} (.sequential 0))).2 :=
  @leaves_of_run_error (insertMany _) .empty (.empty "pets" none {} (.sequential 0)) _ _ rfl

end Call

end DocStore
