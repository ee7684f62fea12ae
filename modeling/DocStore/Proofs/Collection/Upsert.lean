import DocStore.Proofs.Collection.Refinement
import DocStore.Proofs.Collection.Validity
import DocStore.Proofs.Filter.Demands
import DocStore.Proofs.Reading
import DocStore.Proofs.Value.Apart
import DocStore.Proofs.Value.Definite

/-!
# Inserting what is not found

A document that an update inserts because none passed its filter is seeded with what the filter
demands. If the demands lie apart and the update spares them, the document meets them, and goes on
meeting them when the same update is made again. So it is found from then on, and no second one is
inserted: `Call.upsert_once`.
-/

set_option autoImplicit false

namespace DocStore

open DocStore.Action

variable {ds : List (String × Json)} {u : Update} {m m' : Fields Value}

/-! ## Meeting demands -/

/-- Every demanded path leads to the demanded value and nothing else. -/
def Filter.Meets (ds : List (String × Json)) (m : Fields Value) : Prop :=
  ∀ d ∈ ds, Value.fieldTerminals m d.1 = [Value.ofJson d.2]

/-- Demands that documents can be seeded with, and that an update leaves alone. -/
structure Filter.Seedable (ds : List (String × Json)) (u : Update) : Prop where
  /-- No path is the beginning of another. -/
  apart : ds.Pairwise fun d e => Segments.Apart (Segments.ofPath d.1) (Segments.ofPath e.1)
  /-- An id is demanded as a whole, as an integer or a text. -/
  id : ∀ d ∈ ds, Segments.top d.1 = idField → d.1 = idField ∧
    ((∃ n, Value.ofJson d.2 = .int n) ∨ ∃ s, Value.ofJson d.2 = .string s)
  /-- The values are such as texts have them. -/
  values : ∀ d ∈ ds, d.2.Distinct ∧ d.2.Definite
  /-- The update names none of the fields that the demands are about. -/
  spared : ∀ c ∈ u.changes, ∀ d ∈ ds, Segments.top c.path ≠ Segments.top d.1

namespace Filter

theorem Meets.congr (h : Meets ds m)
    (hget : ∀ d ∈ ds, Fields.get? m' (Segments.top d.1) = Fields.get? m (Segments.top d.1)) :
    Meets ds m' := fun d hd => (Value.fieldTerminals_congr (hget d hd)).trans (h d hd)

/-- Where the demands are met, the filter holds. -/
theorem Seedable.holds_of_meets (h : Seedable ds u) {f : Filter} (hf : Demand [f] ds)
    (hm : Meets ds m) : f.holds m = true := by
  refine hf.holds_iff.2 fun d hd => ?_
  have hself := Value.equal_ofJson_self (h.values d hd).1 (h.values d hd).2
  rw [equality, Filter.holds, hm d hd]
  simp [Condition.holds, Condition.anyCandidate, Condition.candidates, hself]

end Filter

open DocStore.Filter (Meets Seedable Demand)

theorem Filter.Seedable.notMem_touched (h : Seedable ds u) {effect : UpdateEffect}
    (happly : u.apply m = .ok (m', effect)) {d : String × Json} (hd : d ∈ ds) :
    Segments.top d.1 ∉ effect.touched := by
  rw [Update.touched_of_apply happly]
  intro hmem
  obtain ⟨c, hc, htop⟩ := Update.mem_touched.1 hmem
  exact h.spared c hc d hd htop.symm

/-- **The new fields meet the demands.** -/
theorem Filter.Seedable.meets_newFields (h : Seedable ds u) {f : Filter} (hf : Demand [f] ds)
    (hm : u.newFields f = .ok m) : Meets ds m := by
  have hapart : (ds.map fun d => (d.1, Value.ofJson d.2)).Pairwise fun d e =>
      Segments.Apart (Segments.ofPath d.1) (Segments.ofPath e.1) := List.pairwise_map.2 h.apart
  obtain ⟨seeded, hseed, hvalues, -⟩ := Update.exists_seed (m := []) hapart
    fun d _ => Value.free_empty (Segments.ofPath_ne_nil d.1)
  rw [Update.newFields, hf.equalitySeeds_eq, hseed] at hm
  obtain ⟨_, ⟨⟩, hm⟩ := bind_eq_ok.1 hm
  obtain ⟨⟨fields, effect⟩, happly, hfields⟩ := bind_eq_ok.1 hm
  cases hfields
  have hseeded : Meets ds seeded := List.forall_mem_map.1 hvalues
  exact hseeded.congr fun d hd => Update.get?_apply happly (h.notMem_touched happly hd)

/-- A document that is made of fields with the demands meets them, the id included. -/
theorem Filter.Seedable.meets_ofValue (h : Seedable ds u) {ids : IdSource} {doc : Document}
    (hdoc : (Document.ofValue (.object m) ids).1 = .ok doc) (hm : Meets ds m) :
    Meets ds doc.fields := by
  obtain ⟨id, rfl, hid⟩ : ∃ id, doc = Document.make id m ∧
      ∀ raw, Fields.get? m idField = some raw → DocumentId.ofValue raw = .ok id := by
    cases hraw : Fields.get? m idField with
    | none =>
        simp only [Document.ofValue, Document.ofFields, hraw] at hdoc
        cases hdoc
        refine ⟨_, rfl, ?_⟩
        intro raw hnone
        cases hnone
    | some raw =>
        simp only [Document.ofValue, Document.ofFields, hraw] at hdoc
        obtain ⟨id, hid, rfl⟩ := map_eq_ok.1 hdoc
        refine ⟨id, rfl, ?_⟩
        rintro _ ⟨⟩
        exact hid
  refine hm.congr fun d hd => ?_
  by_cases htop : Segments.top d.1 = idField
  · obtain ⟨hpath, hkind⟩ := h.id d hd htop
    have hfield : Fields.get? m idField = some (Value.ofJson d.2) := by
      have hterminals := hm d hd
      rw [hpath] at hterminals
      change (Fields.get? m idField).toList.flatMap (Value.reach []) = _ at hterminals
      cases hget : Fields.get? m idField with
      | none => simp [hget] at hterminals
      | some v => simpa [hget, Value.reach] using hterminals
    rw [htop, Document.get?_make_id, hfield, Option.some.injEq]
    have hvalue := hid _ hfield
    rcases hkind with ⟨n, hn⟩ | ⟨s, hs⟩
    · rw [hn] at hvalue ⊢
      cases hvalue
      rfl
    · rw [hs] at hvalue ⊢
      cases hvalue
      rfl
  · exact Document.get?_make_of_ne id m htop

/-! ## Updating a document that is there -/

namespace Collection

variable {c : Collection} {f : Filter}

/-- An update of a document that is there puts a new version in its place, or leaves it. -/
theorem exists_updateOne {position : Nat} {old : Document} (hp : c.position? f = some position)
    (hold : c.documents[position]? = some old) (u : Update) (orInsert : Bool) :
    ∃ r c' new, Yields (updateOne f u orInsert) c r c' ∧
      c'.documents = c.documents.set position new ∧
      (new = old ∨ ∃ fields effect, u.apply old.fields = .ok (fields, effect) ∧
        new = Document.make old.id fields) := by
  have hsame : c.documents.set position old = c.documents := by
    obtain ⟨hlt, rfl⟩ := List.getElem?_eq_some_iff.1 hold
    exact List.set_getElem_self hlt
  cases hstaged : c.staged u old with
  | error e =>
      exact ⟨_, c, old, yields_updateOne_error hp hold hstaged, hsame.symm, .inl rfl⟩
  | ok updated =>
      cases updated with
      | none =>
          exact ⟨_, c, old, yields_updateOne_unchanged hp hold hstaged, hsame.symm, .inl rfl⟩
      | some new =>
          obtain ⟨fields, effect, happly, rfl, -⟩ := staged_eq_some hstaged
          exact ⟨_, _, _, yields_updateOne hp hold hstaged, documents_replaced c position _,
            .inr ⟨fields, effect, happly, rfl⟩⟩

/-! ## A document at the end -/

/-- Behind documents that do not pass, a collection has one document, which meets demands. -/
structure Behind (before : List Document) (id : DocumentId) (ds : List (String × Json))
    (c : Collection) (doc : Document) : Prop where
  documents : c.documents = before ++ [doc]
  id : doc.id = id
  idFirst : doc.IdFirst
  meets : Meets ds doc.fields

variable {before : List Document} {id : DocumentId} {doc : Document}

theorem Behind.found (h : Behind before id ds c doc) (hrefused : f.RefusesAll before)
    (hpasses : f.passes doc = true) : c.found f = [doc] := by
  have hnone : before.filter (fun d => f.holds d.fields) = [] :=
    List.filter_eq_nil_iff.2 fun d hd => Bool.eq_false_iff.1 (hrefused d hd)
  have hself : [doc].filter (fun d => f.holds d.fields) = [doc] := by
    have hholds : f.holds doc.fields = true := hpasses
    simp [hholds]
  rw [Collection.found, h.documents, List.filter_append, hnone, hself, List.nil_append]

theorem Behind.position? (h : Behind before id ds c doc) (hrefused : f.RefusesAll before)
    (hpasses : f.passes doc = true) : c.position? f = some before.length := by
  have hnone : before.findIdx? (fun d => f.holds d.fields) = none :=
    List.findIdx?_eq_none_iff.2 hrefused
  have hholds : f.holds doc.fields = true := hpasses
  rw [Collection.position?, h.documents, List.findIdx?_append, hnone]
  simp [List.findIdx?_cons, hholds]

/-- **The same update again** changes the document at the end, and inserts none. -/
theorem Behind.exists_updateOne (h : Behind before id ds c doc) (hseed : Seedable ds u)
    (hf : Demand [f] ds) (hrefused : f.RefusesAll before) :
    ∃ r c' new, Yields (updateOne f u true) c r c' ∧ Behind before id ds c' new := by
  have hposition := h.position? hrefused (hseed.holds_of_meets hf h.meets)
  have hold : c.documents[before.length]? = some doc := by simp [h.documents]
  obtain ⟨r, c', new, hyields, hdocuments, hnew⟩ :=
    Collection.exists_updateOne hposition hold u true
  refine ⟨r, c', new, hyields, ?_⟩
  have hset : c'.documents = before ++ [new] := by simp [hdocuments, h.documents]
  rcases hnew with rfl | ⟨fields, effect, happly, rfl⟩
  · exact ⟨hset, h.id, h.idFirst, h.meets⟩
  · refine ⟨hset, h.id, Document.idFirst_make _ _, h.meets.congr fun d hd => ?_⟩
    exact Document.get?_updated h.idFirst happly (hseed.notMem_touched happly hd)

/-- **An update that inserts a document** did not find one, and puts it at the end. -/
theorem exists_behind_of_grown (hseed : Seedable ds u) (hf : Demand [f] ds)
    {r : Result UpdateOutcome} {c' : Collection} (hyields : Yields (updateOne f u true) c r c')
    (hgrown : c.documents.length < c'.documents.length) :
    f.RefusesAll c.documents ∧ ∃ doc, Behind c.documents doc.id ds c' doc := by
  rcases first_or_refusesAll c f with ⟨before, d, after, hfirst, hp⟩ | ⟨hnone, hp⟩
  · -- A document that was found gives way to another one.
    exfalso
    have hold : c.documents[before.length]? = some d := by simp [hfirst.split]
    obtain ⟨_, _, new, hfound, hdocuments, -⟩ := Collection.exists_updateOne hp hold u true
    obtain ⟨-, rfl⟩ := hyields.unique hfound
    rw [hdocuments, List.length_set] at hgrown
    exact Nat.lt_irrefl _ hgrown
  · refine ⟨hnone, ?_⟩
    cases hfields : u.newFields f with
    | error e =>
        obtain ⟨-, rfl⟩ :=
          hyields.unique (yields_updateOne_upsert hp (yields_upsert_fields_error hfields))
        exact absurd hgrown (Nat.lt_irrefl _)
    | ok fields =>
        cases hdoc : c.prepared c.ids (.object fields) with
        | error e =>
            obtain ⟨-, rfl⟩ :=
              hyields.unique (yields_updateOne_upsert hp (yields_upsert_error hfields hdoc))
            exact absurd hgrown (Nat.lt_irrefl _)
        | ok doc =>
            obtain ⟨-, rfl⟩ :=
              hyields.unique (yields_updateOne_upsert hp (yields_upsert hfields hdoc))
            obtain ⟨hvalue, -, -⟩ := prepared_eq_ok hdoc
            refine ⟨doc, by simp, rfl, (Document.Built.ofValue hvalue).idFirst, ?_⟩
            exact hseed.meets_ofValue hvalue (hseed.meets_newFields hf hfields)

end Collection

namespace Call

open Collection (Behind)

variable {filter update : Json} {f : Filter}

/-- An update whose filter is read without patterns does the same whatever is cached. -/
theorem run_updateOne (hread : Filter.read filter = (pure f : CachedReading Filter))
    (hu : Update.ofJson update = .ok u) {orInsert : Bool} {c c' : Collection}
    {r : Result UpdateOutcome} (hyields : Yields (Collection.updateOne f u orInsert) c r c')
    (cache : PatternCache) :
    ((updateOne filter update orInsert).run cache c).2 = c' := by
  have hcall : Always (updateOne filter update orInsert).read
      (discard (Collection.updateOne f u orInsert)) := by
    rw [read, hread]
    exact (always_pure f).bind ((always_ofResult hu).bind (always_pure _))
  rw [run, hcall cache]
  exact hyields.discard.runOn.2

/-- What making a call again and again leads to, each time with the patterns that are cached. -/
def again (call : Call) (caches : List PatternCache) (c : Collection) : Collection :=
  runAll c (caches.map fun cache => (call, cache))

/-- However often an update is made again, there is one document at the end. -/
theorem exists_behind_again (hread : Filter.read filter = (pure f : CachedReading Filter))
    (hu : Update.ofJson update = .ok u) (hseed : Seedable ds u) (hf : Demand [f] ds)
    {before : List Document} (hrefused : f.RefusesAll before) {id : DocumentId}
    (caches : List PatternCache) {c : Collection} {doc : Document}
    (h : Behind before id ds c doc) :
    ∃ new, Behind before id ds ((updateOne filter update true).again caches c) new := by
  induction caches generalizing c doc with
  | nil => exact ⟨doc, h⟩
  | cons cache rest ih =>
      obtain ⟨r, c', new, hyields, hnew⟩ := h.exists_updateOne hseed hf hrefused
      rw [again, List.map_cons, runAll, List.foldl_cons, run_updateOne hread hu hyields cache]
      exact ih hnew

/-- **What is inserted because it was not found is found from then on.** If a call that may insert,
with a filter of equalities at paths that lie apart and an update that spares them, makes a
collection longer, its new document is the only one that passes the filter. However often the call
is repeated, with whatever patterns cached, there is no further document, and the one that was
inserted stays the only one that passes. -/
theorem upsert_once (hds : Filter.demands? filter = some ds) (hu : Update.ofJson update = .ok u)
    (hseed : Filter.Seedable ds u) {c c' : Collection} {cache : PatternCache} {r : Result Unit}
    (hrun : (updateOne filter update true).run cache c = (r, c'))
    (hgrown : c.documents.length < c'.documents.length) :
    ∃ f doc, Filter.ofJson filter = .ok f ∧ c'.documents = c.documents ++ [doc] ∧
      c'.found f = [doc] ∧
      ∀ caches, ∃ new, new.id = doc.id ∧
        ((updateOne filter update true).again caches c').documents = c.documents ++ [new] ∧
        ((updateOne filter update true).again caches c').found f = [new] := by
  obtain ⟨f, hf, hread⟩ := Filter.read_eq_pure hds
  obtain ⟨r', c₁, hyields, -, -⟩ := Collection.allOrNothing_updateOne f u true c
  have hc' : c' = c₁ := by
    rw [← run_updateOne (hread CachedReading) hu hyields cache, hrun]
  subst hc'
  obtain ⟨hrefused, doc, hdoc⟩ := Collection.exists_behind_of_grown hseed hf hyields hgrown
  refine ⟨f, doc, hread Result, hdoc.documents,
    hdoc.found hrefused (hseed.holds_of_meets hf hdoc.meets), fun caches => ?_⟩
  obtain ⟨new, hnew⟩ := exists_behind_again (hread CachedReading) hu hseed hf hrefused caches hdoc
  exact ⟨new, hnew.id, hnew.documents,
    hnew.found hrefused (hseed.holds_of_meets hf hnew.meets)⟩

/-- A pet that is not there yet is inserted once, and its age counted up after that. -/
theorem upsert_once_rex :
    ∃ f doc c', Filter.ofJson (.object [("name", .string "Rex"),
        ("owner.name", .object [("$eq", .string "Ann")])]) = .ok f ∧
      (updateOne (.object [("name", .string "Rex"),
          ("owner.name", .object [("$eq", .string "Ann")])])
        (.object [("$inc", .object [("age", .ofInt 1)])]) true).run .empty
          (.empty "pets" none {} (.sequential 0)) = (.ok (), c') ∧
      c'.found f = [doc] ∧
      ∀ caches, ∃ new, new.id = doc.id ∧
        ((updateOne (.object [("name", .string "Rex"),
            ("owner.name", .object [("$eq", .string "Ann")])])
          (.object [("$inc", .object [("age", .ofInt 1)])]) true).again caches c').found f =
            [new] := by
  have hid : ∀ d ∈ [("name", Json.string "Rex"), ("owner.name", Json.string "Ann")],
      Segments.top d.1 ≠ idField := by decide
  have hseed : Filter.Seedable [("name", .string "Rex"), ("owner.name", .string "Ann")]
      ⟨[.increment "age" (.int 1)]⟩ := {
    apart := List.pairwise_pair.2 ⟨by decide, by decide⟩
    id := fun d hd htop => absurd htop (hid d hd)
    values := List.forall_mem_cons.2 ⟨⟨trivial, trivial⟩,
      List.forall_mem_singleton.2 ⟨trivial, trivial⟩⟩
    spared := by decide }
  have hrun : (updateOne (.object [("name", .string "Rex"),
      ("owner.name", .object [("$eq", .string "Ann")])])
        (.object [("$inc", .object [("age", .ofInt 1)])]) true).run .empty
          (.empty "pets" none {} (.sequential 0)) = (.ok (), _) := rfl
  obtain ⟨f, doc, hf, -, hfound, hagain⟩ := upsert_once rfl rfl hseed hrun (by decide)
  exact ⟨f, doc, _, hf, hrun, hfound, fun caches => (hagain caches).imp fun new h =>
    ⟨h.1, h.2.2⟩⟩

end Call

end DocStore
