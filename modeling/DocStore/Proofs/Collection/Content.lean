import DocStore.Proofs.Collection.Call
import DocStore.Proofs.Filter.Seeds
import DocStore.Proofs.Storage.Decode
import DocStore.Proofs.Update.Brings
import DocStore.Proofs.Value.Regular

/-!
# What documents are made of

All that an operation stores is made of documents that are there and of its arguments. So a property
at every depth that JSON conveys and that lasts through updates holds of all documents after any
calls: `Call.made_runAll`. Calls with regular arguments keep documents regular:
`Call.regular_runAll`.
-/

set_option autoImplicit false

namespace DocStore

open DocStore.Action

namespace Collection

variable {α : Type} {P : Document → Prop}

/-- A property of documents that is kept by an action, whether it succeeds or fails. -/
def Keeps (P : Document → Prop) (a : Action α) : Prop :=
  ∀ c : Collection, (∀ d ∈ c.documents, P d) →
    ∃ r c', Yields a c r c' ∧ ∀ d ∈ c'.documents, P d

/-- A property of every document that a value stands for. -/
def Brings (P : Document → Prop) (v : Value) : Prop :=
  ∀ ids d, (Document.ofValue v ids).1 = .ok d → P d

/-- A property that an update keeps. -/
def KeptBy (P : Document → Prop) (u : Update) : Prop :=
  ∀ old fields effect, P old → u.apply old.fields = .ok (fields, effect) → P (.make old.id fields)

namespace Keeps

theorem discard {a : Action α} (h : Keeps P a) : Keeps P (Functor.discard a : Action Unit) := by
  intro c hc
  obtain ⟨r, c', hy, hc'⟩ := h c hc
  exact ⟨_, c', hy.discard, hc'⟩

theorem of_looks {a : Action α} (h : Looks a) : Keeps P a := by
  intro c hc
  obtain ⟨r, hy⟩ := h c
  exact ⟨r, c, hy, hc⟩

end Keeps

/-! ## Documents that are added -/

theorem forall_mem_documents_inserted {c : Collection} {doc : Document}
    (hc : ∀ d ∈ c.documents, P d) (hdoc : P doc) : ∀ d ∈ (c.inserted doc).documents, P d := by
  rw [documents_inserted]
  exact List.forall_mem_append.2 ⟨hc, List.forall_mem_singleton.2 hdoc⟩

theorem Brings.prepared {v : Value} (hv : Brings P v) {c : Collection} {taken : List DocumentId}
    {doc : Document} (h : c.prepared taken v = .ok doc) : P doc :=
  hv _ _ (prepared_eq_ok h).1

theorem Prepares.forall_mem {c c' : Collection} {taken : List DocumentId} {vs : List Value}
    {docs : List Document} (h : Prepares c taken vs docs c') (hvs : ∀ v ∈ vs, Brings P v) :
    ∀ d ∈ docs, P d := by
  induction h with
  | nil => exact List.forall_mem_nil _
  | cons head _ ih =>
      obtain ⟨hv, hvs⟩ := List.forall_mem_cons.1 hvs
      exact List.forall_mem_cons.2 ⟨hv.prepared head, ih hvs⟩

theorem keeps_insertOne {v : Value} (hv : Brings P v) : Keeps P (insertOne v) := by
  intro c hc
  cases h : c.prepared c.ids v with
  | ok doc =>
      exact ⟨_, _, yields_insertOne h, forall_mem_documents_inserted hc (hv.prepared h)⟩
  | error e => exact ⟨_, _, yields_insertOne_error h, hc⟩

theorem keeps_insertMany {vs : List Value} (hvs : ∀ v ∈ vs, Brings P v) :
    Keeps P (insertMany vs) := by
  intro c hc
  have hinserted {before : List Value} {docs : List Document} {c' : Collection}
      (h : Prepares c c.ids before docs c') (hbefore : ∀ v ∈ before, Brings P v) :
      ∀ d ∈ (c'.insertedAll docs).documents, P d := by
    rw [documents_insertedAll, h.documents_eq]
    exact List.forall_mem_append.2 ⟨hc, h.forall_mem hbefore⟩
  -- Either all documents are prepared, or the batch stops at the first one that is refused.
  rcases Prepares.total_or_stops c c.ids vs with
    ⟨docs, c', h⟩ | ⟨before, v, after, docs, c', cause, rfl, h, hcause⟩
  · exact ⟨_, _, h.yields_insertMany, hinserted h hvs⟩
  · cases hp : c.options.policy with
    | ordered =>
        exact ⟨_, _, h.yields_insertMany_ordered hp hcause after,
          hinserted h (List.forall_mem_append.1 hvs).1⟩
    | atomic =>
        -- Only ids were drawn.
        refine ⟨_, _, h.yields_insertMany_atomic hp hcause after, ?_⟩
        rw [documents_drawn, h.documents_eq]
        exact hc

theorem keeps_upsert {f : Filter} {u : Update}
    (hfields : ∀ fields, u.newFields f = .ok fields → Brings P (.object fields)) :
    Keeps P (upsert f u) := by
  intro c hc
  cases hnew : u.newFields f with
  | error e => exact ⟨_, _, yields_upsert_fields_error hnew, hc⟩
  | ok fields =>
      cases h : c.prepared c.ids (.object fields) with
      | ok doc =>
          exact ⟨_, _, yields_upsert hnew h,
            forall_mem_documents_inserted hc ((hfields fields hnew).prepared h)⟩
      | error e => exact ⟨_, _, yields_upsert_error hnew h, hc⟩

/-! ## Documents that are replaced -/

theorem forall_mem_documents_replaced {c : Collection} {doc : Document}
    (hc : ∀ d ∈ c.documents, P d) (hdoc : P doc) (position : Nat) :
    ∀ d ∈ (c.replaced position doc).documents, P d := by
  rw [documents_replaced]
  intro d hd
  rcases List.mem_or_eq_of_mem_set hd with hd | rfl
  · exact hc d hd
  · exact hdoc

theorem forall_mem_documents_replacedAll {c : Collection} {changes : List (Document × Nat)}
    (hc : ∀ d ∈ c.documents, P d) (hchanges : ∀ e ∈ changes, P e.1) :
    ∀ d ∈ (c.replacedAll changes).documents, P d := by
  induction changes generalizing c with
  | nil => exact hc
  | cons e rest ih =>
      obtain ⟨he, hrest⟩ := List.forall_mem_cons.1 hchanges
      exact ih (forall_mem_documents_replaced hc he e.2) hrest

theorem KeptBy.staged {u : Update} (hu : KeptBy P u) {c : Collection} {old doc : Document}
    (hold : P old) (h : c.staged u old = .ok (some doc)) : P doc := by
  obtain ⟨fields, effect, happly, rfl, -⟩ := staged_eq_some h
  exact hu old fields effect hold happly

theorem keeps_updateOne {f : Filter} {u : Update} (hu : KeptBy P u) (orInsert : Bool)
    (hfields : ∀ fields, u.newFields f = .ok fields → Brings P (.object fields)) :
    Keeps P (updateOne f u orInsert) := by
  intro c hc
  cases hp : c.position? f with
  | some position =>
      obtain ⟨doc, hdoc, _⟩ := position?_eq_some hp
      cases h : c.staged u doc with
      | error e => exact ⟨_, _, yields_updateOne_error hp hdoc h, hc⟩
      | ok updated =>
          cases updated with
          | none => exact ⟨_, _, yields_updateOne_unchanged hp hdoc h, hc⟩
          | some updated =>
              have hupdated := hu.staged (hc doc (List.mem_of_getElem? hdoc)) h
              exact ⟨_, _, yields_updateOne hp hdoc h,
                forall_mem_documents_replaced hc hupdated position⟩
  | none =>
      cases orInsert with
      | false => exact ⟨_, _, yields_updateOne_none hp, hc⟩
      | true =>
          obtain ⟨r, c', hy, hc'⟩ := keeps_upsert hfields c hc
          exact ⟨r, c', yields_updateOne_upsert hp hy, hc'⟩

theorem keeps_updateMany (f : Filter) {u : Update} (hu : KeptBy P u) :
    Keeps P (updateMany f u) := by
  intro c hc
  cases h : c.stagedAll u (c.matching f) with
  | error e => exact ⟨_, _, yields_updateMany_error h, hc⟩
  | ok changes =>
      refine ⟨_, _, yields_updateMany h, forall_mem_documents_replacedAll hc ?_⟩
      rintro ⟨doc, position⟩ hmem
      -- A staged document is an update of one that is there.
      obtain ⟨old, hold, hstaged⟩ := mem_of_stagedAll h hmem
      exact hu.staged (hc old (List.mem_of_getElem? (mem_matching.1 hold).1)) hstaged

/-! ## Documents that are left -/

theorem forall_mem_documents_removed {c : Collection} (hc : ∀ d ∈ c.documents, P d)
    (position : Nat) : ∀ d ∈ (c.removed position).documents, P d := by
  rw [documents_removed]
  exact fun d hd => hc d (List.mem_of_mem_eraseIdx hd)

theorem keeps_deleteOne (f : Filter) : Keeps P (deleteOne f) := by
  intro c hc
  cases hp : c.position? f with
  | none => exact ⟨_, _, yields_deleteOne_none hp, hc⟩
  | some position =>
      exact ⟨_, _, yields_deleteOne hp, forall_mem_documents_removed hc position⟩

theorem keeps_deleteMany (f : Filter) : Keeps P (deleteMany f) := by
  have hall (positions : List Nat) : ∀ c : Collection, (∀ d ∈ c.documents, P d) →
      ∀ d ∈ (c.removedAll positions).documents, P d := by
    induction positions with
    | nil => exact fun _ hc => hc
    | cons p rest ih => exact fun c hc => ih _ (forall_mem_documents_removed hc p)
  exact fun c hc => ⟨_, _, yields_deleteMany f c, hall _ c hc⟩

theorem keeps_flush : Keeps P flush := by
  intro c hc
  refine ⟨_, _, yields_flush c, ?_⟩
  change ∀ d ∈ c.storage.flush.1.documents, P d
  rw [c.storage.flush_documents]
  exact hc

theorem keeps_compact : Keeps P compact := by
  intro c hc
  cases h : c.storage.compact? with
  | none => exact ⟨_, _, yields_compact_none h, hc⟩
  | some result =>
      obtain ⟨stats, storage, notes⟩ := result
      refine ⟨_, _, yields_compact h, ?_⟩
      change ∀ d ∈ storage.documents, P d
      rw [Storage.compact?_documents h]
      exact hc

end Collection

/-! ## Documents with a property at every depth -/

/-- A property of documents that says of the fields that they have another one, and nothing besides
that a document which is made of such fields does not have. -/
structure Document.Made (V : Value → Prop) (P : Document → Prop) : Prop where
  fields : ∀ {d : Document}, P d → V (.object d.fields)
  make : ∀ (id : DocumentId) {m : Fields Value}, V (.object m) → P (.make id m)

namespace Document.Made

open Value (Everywhere)

variable {V : Value → Prop} {P : Document → Prop}

theorem brings (hP : Made V P) {v : Value} (h : V v) : Collection.Brings P v := by
  intro ids d hd
  cases v with
  | object fields =>
      change (ofFields fields ids).1 = .ok d at hd
      unfold ofFields at hd
      split at hd
      · obtain ⟨id, -, rfl⟩ := map_eq_ok.1 hd
        exact hP.make id h
      · cases hd
        exact hP.make _ h
  | _ => cases hd

theorem keptBy {L : Value → Prop} {N : List (String × Value) → Prop}
    (hlast : Value.Lasting L N) (hP : Made (Everywhere L N) P) {u : Update}
    (hu : u.Brings (Everywhere L N)) : Collection.KeptBy P u :=
  fun old _ _ hold happly =>
    hP.make old.id (Update.everywhere_apply hlast hu (hP.fields hold) happly)

end Document.Made

namespace Call

open Collection (Keeps)
open Value (Everywhere)

/-- A call of which the arguments that bring values have a property. -/
def Arguments (J : Json → Prop) : Call → Prop
  | insertOne doc => J doc
  | insertMany docs => ∀ doc ∈ docs, J doc
  | updateOne filter update _ => J filter ∧ J update
  | updateMany filter update => J filter ∧ J update
  | _ => True

section Made

variable {L : Value → Prop} {N : List (String × Value) → Prop} {J : Json → Prop}
  {P : Document → Prop} (hlast : Value.Lasting L N) (hJ : Value.Conveys J L N)
  (hP : Document.Made (Everywhere L N) P)
include hlast hJ hP

theorem gives_read {call : Call} (h : call.Arguments J) : Gives call.read (Keeps P) := by
  cases call with
  | insertOne doc =>
      exact gives_pure (Collection.keeps_insertOne (hP.brings (hJ.value doc h))).discard
  | insertMany docs =>
      refine gives_pure (Collection.keeps_insertMany ?_).discard
      intro v hv
      obtain ⟨doc, hdoc, rfl⟩ := List.mem_map.1 hv
      exact hP.brings (hJ.value doc (h doc hdoc))
  | find filter options =>
      exact gives_bind (gives_any _) fun f _ =>
        gives_pure (Keeps.of_looks (Collection.looks_find f options)).discard
  | findOne filter =>
      exact gives_bind (gives_any _) fun f _ =>
        gives_pure (Keeps.of_looks (Collection.looks_findOne f)).discard
  | count filter =>
      exact gives_bind (gives_any _) fun f _ =>
        gives_pure (Keeps.of_looks (Collection.looks_count f)).discard
  | updateOne filter update orInsert =>
      refine gives_bind (Filter.gives_read hJ filter h.1) fun f hf => ?_
      refine gives_bind (gives_ofResult fun u hu => Update.brings_ofJson hJ h.2 hu) fun u hu => ?_
      refine gives_pure (Collection.keeps_updateOne (hP.keptBy hlast hu) orInsert ?_).discard
      exact fun fields hfields => hP.brings (Update.everywhere_newFields hlast hu hf hfields)
  | updateMany filter update =>
      refine gives_bind (gives_any _) fun f _ => ?_
      refine gives_bind (gives_ofResult fun u hu => Update.brings_ofJson hJ h.2 hu) fun u hu => ?_
      exact gives_pure (Collection.keeps_updateMany f (hP.keptBy hlast hu)).discard
  | deleteOne filter =>
      exact gives_bind (gives_any _) fun f _ =>
        gives_pure (Collection.keeps_deleteOne f).discard
  | deleteMany filter =>
      exact gives_bind (gives_any _) fun f _ =>
        gives_pure (Collection.keeps_deleteMany f).discard
  | aggregate pipeline =>
      exact gives_bind (gives_any _) fun p _ =>
        gives_pure (Keeps.of_looks (Collection.looks_aggregate p)).discard
  | flush => exact gives_pure Collection.keeps_flush
  | compact => exact gives_pure Collection.keeps_compact.discard

/-- **One call.** -/
theorem made_run {call : Call} (hcall : call.Arguments J) (cache : PatternCache) {c : Collection}
    (hc : ∀ d ∈ c.documents, P d) : ∀ d ∈ (call.run cache c).2.documents, P d := by
  unfold run
  cases hread : (call.read.run.run cache).1 with
  -- Arguments that cannot be read leave the collection alone.
  | error e => exact hc
  | ok action =>
      obtain ⟨r, c', hy, hc'⟩ := gives_read hlast hJ hP hcall cache action hread c hc
      rw [← hy.runOn.2] at hc'
      exact hc'

/-- **A run of calls.** The documents keep the property. -/
theorem made_runAll {c : Collection} (hc : ∀ d ∈ c.documents, P d)
    {calls : List (Call × PatternCache)} (hcalls : ∀ e ∈ calls, e.1.Arguments J) :
    ∀ d ∈ (runAll c calls).documents, P d := by
  induction calls generalizing c with
  | nil => exact hc
  | cons e rest ih =>
      obtain ⟨he, hrest⟩ := List.forall_mem_cons.1 hcalls
      exact ih (made_run hlast hJ hP he e.2 hc) hrest

end Made

end Call

/-! ## Regular documents -/

/-- A document of which the first field holds the id and whose fields are regular. -/
structure Document.Regular (d : Document) : Prop where
  idFirst : d.IdFirst
  fields : Value.Regular (.object d.fields)

namespace Document

theorem regular_make {fields : Fields Value} (h : Value.Regular (.object fields))
    (id : DocumentId) : (make id fields).Regular := by
  refine ⟨idFirst_make id fields, ?_⟩
  -- The id replaces a field of its name.
  have hkeys : (Fields.keys (make id fields).fields).Nodup := (keyed_make id h.1).1
  refine ⟨hkeys, ?_, Value.everywhereFields_erase h.2 idField⟩
  cases id <;> trivial

theorem made_regular : Made Value.Regular Regular where
  fields := Regular.fields
  make id _ h := regular_make h id

end Document

namespace Call

/-- A call whose arguments have no repeated names: JSON that was read from a text has none, see
`Json.distinct_of_parse?`. -/
def Distinct : Call → Prop
  | insertOne doc => doc.Distinct
  | insertMany docs => ∀ doc ∈ docs, doc.Distinct
  | updateOne filter update _ => filter.Distinct ∧ update.Distinct
  | updateMany filter update => filter.Distinct ∧ update.Distinct
  | _ => True

theorem Distinct.arguments {call : Call} (h : call.Distinct) : call.Arguments Json.Distinct := by
  cases call <;> exact h

/-- **A run of calls.** The documents stay regular. -/
theorem regular_runAll {c : Collection} (hc : ∀ d ∈ c.documents, d.Regular)
    {calls : List (Call × PatternCache)} (hcalls : ∀ e ∈ calls, e.1.Distinct) :
    ∀ d ∈ (runAll c calls).documents, d.Regular :=
  made_runAll Value.lasting_regular Value.conveys_regular Document.made_regular hc
    fun e he => (hcalls e he).arguments

end Call

end DocStore
