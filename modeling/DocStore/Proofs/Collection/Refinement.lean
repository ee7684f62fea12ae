import DocStore.Collection.Read
import DocStore.Proofs.Collection.Identity
import DocStore.Proofs.Update.Frame
import DocStore.Proofs.Update.Reading

/-!
# Collections as lists

What an operation with a filter does to a collection is a change of a plain list of documents, and
is said here without positions: of the documents that pass, the first is found, updated or deleted,
or all are counted, updated or deleted, and the others stay where they are. This holds of all
collections that calls lead to: `Call.actsAsList_runAll`.
-/

set_option autoImplicit false

namespace DocStore

open DocStore.Action

/-! ## Documents that pass -/

/-- Whether a document passes a filter. -/
def Filter.passes (f : Filter) (d : Document) : Bool := f.holds d.fields

/-- The first document of a list that passes a filter, between those before it and those behind. -/
structure Filter.First (f : Filter) (docs before : List Document) (d : Document)
    (after : List Document) : Prop where
  split : docs = before ++ d :: after
  passes : f.passes d = true
  before : ∀ b ∈ before, f.passes b = false

/-- A list of which no document passes a filter. -/
def Filter.RefusesAll (f : Filter) (docs : List Document) : Prop := ∀ d ∈ docs, f.passes d = false

theorem Filter.First.find?_eq {f : Filter} {docs before after : List Document} {d : Document}
    (h : f.First docs before d after) : docs.find? f.passes = some d := by
  rw [h.split, List.find?_append, List.find?_cons_of_pos h.passes,
    List.find?_eq_none.2 fun b hb => Bool.eq_false_iff.1 (h.before b hb)]
  rfl

/-! ## Versions of a document -/

namespace Update

/-- A document is the version of another that an update makes: it has the same id and the updated
fields. The update reports whether it has changed anything. -/
def Makes (u : Update) (old new : Document) (modified : Bool) : Prop :=
  new.id = old.id ∧
    ∃ effect, u.apply old.fields = .ok (new.fields, effect) ∧ effect.modified = modified

/-- Whether an update reports that it has changed a document. -/
def modifies (u : Update) (d : Document) : Bool :=
  match u.apply d.fields with
  | .ok (_, effect) => effect.modified
  | .error _ => false

theorem Makes.modifies_eq {u : Update} {old new : Document} {modified : Bool}
    (h : u.Makes old new modified) : u.modifies old = modified := by
  obtain ⟨-, effect, happly, rfl⟩ := h
  simp [modifies, happly]

end Update

namespace Collection

/-- **A staged version is the one that the update makes.** The fields of a document begin with its
id and an update leaves it there, so putting the id in front again changes nothing. -/
theorem makes_of_staged {c : Collection} {u : Update} (hu : u.SparesId) {old : Document}
    (hfirst : old.IdFirst) {updated : Option Document} (h : c.staged u old = .ok updated) :
    u.Makes old (updated.getD old) updated.isSome := by
  unfold staged at h
  obtain ⟨⟨fields, effect⟩, happly, h⟩ := bind_eq_ok.1 h
  dsimp only at h
  split at h
  · rename_i hmodified
    obtain ⟨_, -, rfl⟩ := map_eq_ok.1 h
    have hhead : fields.head? = some (idField, old.id.toValue) := by
      refine (Update.edits_apply happly).head?_eq hfirst fun hmem => ?_
      obtain ⟨⟨_, _⟩, -, heq⟩ := bind_eq_ok.1 happly
      cases heq
      obtain ⟨c, hc, htop⟩ := Update.mem_touched.1 hmem
      exact hu c hc htop.symm
    obtain ⟨rest, rfl⟩ := List.head?_eq_some_iff.1 hhead
    refine ⟨rfl, effect, ?_, hmodified⟩
    rw [happly]
    simp [Document.make, Fields.erase]
  · rename_i hnone
    cases h
    rw [Update.eq_of_apply happly (Bool.eq_false_iff.2 hnone)] at happly
    exact ⟨rfl, effect, happly, Bool.eq_false_iff.2 hnone⟩

/-! ## The first that passes -/

theorem first_of_position? {c : Collection} {f : Filter} {position : Nat}
    (h : c.position? f = some position) :
    ∃ before d after, f.First c.documents before d after ∧ before.length = position := by
  obtain ⟨hlt, hpasses, hbefore⟩ := List.findIdx?_eq_some_iff_getElem.1 h
  refine ⟨c.documents.take position, c.documents[position], c.documents.drop (position + 1),
    ⟨?_, hpasses, ?_⟩, ?_⟩
  · rw [← List.drop_eq_getElem_cons hlt, List.take_append_drop]
  · intro b hb
    obtain ⟨i, hi, rfl⟩ := List.mem_take_iff_getElem.1 hb
    exact Bool.eq_false_iff.2 (hbefore i (by omega))
  · rw [List.length_take]
    omega

/-- Either there is a first document that passes, at the position that is looked up, or none
passes. -/
theorem first_or_refusesAll (c : Collection) (f : Filter) :
    (∃ before d after, f.First c.documents before d after ∧
      c.position? f = some before.length) ∨
    f.RefusesAll c.documents ∧ c.position? f = none := by
  cases hp : c.position? f with
  | none => exact .inr ⟨List.findIdx?_eq_none_iff.1 hp, rfl⟩
  | some position =>
      obtain ⟨before, d, after, hfirst, rfl⟩ := first_of_position? hp
      exact .inl ⟨before, d, after, hfirst, rfl⟩

/-! ## All that pass -/

/-- The documents that pass, with their positions behind others. -/
def matchingFrom (f : Filter) (before : Nat) (docs : List Document) : List (Document × Nat) :=
  (docs.zipIdx before).filter fun e => f.holds e.1.fields

theorem matchingFrom_cons (f : Filter) (before : Nat) (d : Document) (docs : List Document) :
    matchingFrom f before (d :: docs) =
      if f.passes d then (d, before) :: matchingFrom f (before + 1) docs
      else matchingFrom f (before + 1) docs := by
  rw [matchingFrom, List.zipIdx_cons, List.filter_cons]
  rfl

theorem length_matchingFrom (f : Filter) (before : Nat) (docs : List Document) :
    (matchingFrom f before docs).length = docs.countP f.passes := by
  induction docs generalizing before with
  | nil => rfl
  | cons d docs ih =>
      rw [matchingFrom_cons, List.countP_cons]
      split <;> simp [ih]

/-- Taken away from the last position to the first, exactly the documents that pass are gone. -/
theorem foldr_eraseIdx (f : Filter) (before docs : List Document) :
    ((matchingFrom f before.length docs).map (·.2)).foldr (fun p l => l.eraseIdx p)
      (before ++ docs) = before ++ docs.filter fun d => !f.passes d := by
  induction docs generalizing before with
  | nil => simp [matchingFrom]
  | cons d docs ih =>
      have hrest : ((matchingFrom f (before.length + 1) docs).map (·.2)).foldr
          (fun p l => l.eraseIdx p) (before ++ d :: docs) =
            before ++ d :: docs.filter fun d => !f.passes d := by
        simpa using ih (before ++ [d])
      rw [matchingFrom_cons, List.filter_cons]
      by_cases hd : f.passes d
      · rw [if_pos hd, List.map_cons, List.foldr_cons, hrest,
          List.eraseIdx_append_of_length_le (Nat.le_refl _), Nat.sub_self]
        simp [hd]
      · rw [if_neg hd, hrest]
        simp [hd]

/-- What updating all that pass does to one document. -/
def Updated (f : Filter) (u : Update) (old new : Document) : Prop :=
  if f.passes old then ∃ modified, u.Makes old new modified else new = old

/-- Staged versions, put at their positions, replace the documents that pass and no others. -/
theorem exists_set_stagedAll {c : Collection} {f : Filter} {u : Update} (hu : u.SparesId)
    (before : List Document) {docs : List Document} (hfirst : ∀ d ∈ docs, d.IdFirst)
    {changes : List (Document × Nat)}
    (h : c.stagedAll u (matchingFrom f before.length docs) = .ok changes) :
    ∃ docs', changes.foldl (fun l e => l.set e.2 e.1) (before ++ docs) = before ++ docs' ∧
      List.Forall₂ (Updated f u) docs docs' ∧
      changes.length = docs.countP fun d => f.passes d && u.modifies d := by
  induction docs generalizing before changes with
  | nil =>
      cases h
      exact ⟨[], rfl, .nil, rfl⟩
  | cons d docs ih =>
      obtain ⟨hd, hfirst⟩ := List.forall_mem_cons.1 hfirst
      -- The documents behind are those behind one more document, whichever version of it.
      have hrest {more : List (Document × Nat)} (new : Document)
          (hmore : c.stagedAll u (matchingFrom f (before.length + 1) docs) = .ok more) :
          ∃ docs', more.foldl (fun l e => l.set e.2 e.1) (before ++ new :: docs) =
              before ++ new :: docs' ∧
            List.Forall₂ (Updated f u) docs docs' ∧
            more.length = docs.countP fun d => f.passes d && u.modifies d := by
        have hlength : (before ++ [new]).length = before.length + 1 := List.length_append
        simpa using ih (before ++ [new]) hfirst (hlength ▸ hmore)
      rw [matchingFrom_cons] at h
      by_cases hpasses : f.passes d
      · rw [if_pos hpasses] at h
        obtain ⟨updated, more, hupdated, hmore, rfl⟩ := stagedAll_cons h
        have hmakes := makes_of_staged hu hd hupdated
        obtain ⟨docs', hset, hall, hlength⟩ := hrest (updated.getD d) hmore
        refine ⟨updated.getD d :: docs', ?_, .cons ?_ hall, ?_⟩
        · rw [← hset, List.foldl_append]
          cases updated with
          | none => rfl
          | some new => simp
        · rw [Updated, if_pos hpasses]
          exact ⟨_, hmakes⟩
        · rw [List.length_append, hlength, List.countP_cons, hmakes.modifies_eq]
          cases updated <;> simp [hpasses, Nat.add_comm]
      · rw [if_neg hpasses] at h
        obtain ⟨docs', hset, hall, hlength⟩ := hrest d h
        refine ⟨d :: docs', hset, .cons ?_ hall, ?_⟩
        · rw [Updated, if_neg hpasses]
        · rw [hlength, List.countP_cons]
          simp [hpasses]

theorem documents_replacedAll (c : Collection) (changes : List (Document × Nat)) :
    (c.replacedAll changes).documents =
      changes.foldl (fun docs e => docs.set e.2 e.1) c.documents := by
  induction changes generalizing c with
  | nil => rfl
  | cons e rest ih =>
      rw [List.foldl_cons, ← documents_replaced]
      exact ih _

theorem documents_removedAll (c : Collection) (positions : List Nat) :
    (c.removedAll positions).documents = positions.foldl List.eraseIdx c.documents := by
  induction positions generalizing c with
  | nil => rfl
  | cons p rest ih =>
      rw [List.foldl_cons, ← documents_removed]
      exact ih _

/-! ## Operations on a list -/

/-- **A collection acts as a list of documents** for a filter and an update. -/
structure ActsAsList (c : Collection) (f : Filter) (u : Update) : Prop where
  /-- The first document that passes is found, if there is one. -/
  findOne : f.RefusesAll c.documents ∧ outcome c (findOne f) = (.ok none, c) ∨
    ∃ before d after, f.First c.documents before d after ∧
      outcome c (findOne f) = (.ok (some d), c)
  /-- Those that pass are counted. -/
  count : outcome c (count f) = (.ok (c.documents.countP f.passes), c)
  /-- The first document that passes gives way to its updated version. -/
  updateOne : ∀ o c', outcome c (updateOne f u false) = (.ok o, c') →
    f.RefusesAll c.documents ∧ c'.documents = c.documents ∧
        o = { matched := 0, modified := 0, upserted := none } ∨
      ∃ before d after new modified, f.First c.documents before d after ∧ u.Makes d new modified ∧
        c'.documents = before ++ new :: after ∧
        o = { matched := 1, modified := modified.toNat, upserted := none }
  /-- All documents that pass give way to their updated versions. -/
  updateMany : ∀ o c', outcome c (updateMany f u) = (.ok o, c') →
    List.Forall₂ (Updated f u) c.documents c'.documents ∧
      o = { matched := c.documents.countP f.passes
            modified := c.documents.countP fun d => f.passes d && u.modifies d
            upserted := none }
  /-- The first document that passes is taken away. -/
  deleteOne : f.RefusesAll c.documents ∧ outcome c (deleteOne f) = (.ok 0, c) ∨
    ∃ before d after c', f.First c.documents before d after ∧
      outcome c (deleteOne f) = (.ok 1, c') ∧ c'.documents = before ++ after
  /-- All documents that pass are taken away, so that none is left. -/
  deleteMany : ∃ c', outcome c (deleteMany f) = (.ok (c.documents.countP f.passes), c') ∧
    c'.documents = (c.documents.filter fun d => !f.passes d) ∧
    outcome c' (Collection.count f) = (.ok 0, c')

section Operations

variable {c : Collection} {f : Filter} {u : Update}

theorem outcome_count (c : Collection) (f : Filter) :
    outcome c (count f) = (.ok (c.documents.countP f.passes), c) := by
  have hcount : Yields (count f) c (.ok (c.found f).length) c :=
    (yields_current c).bind (yields_pure _ c)
  rw [hcount.outcome, List.countP_eq_length_filter]
  rfl

theorem findOne_asList (c : Collection) (f : Filter) :
    f.RefusesAll c.documents ∧ outcome c (findOne f) = (.ok none, c) ∨
      ∃ before d after, f.First c.documents before d after ∧
        outcome c (findOne f) = (.ok (some d), c) := by
  have hfind : Yields (findOne f) c (.ok (c.documents.find? f.passes)) c :=
    (yields_current c).bind (yields_pure _ c)
  rw [hfind.outcome]
  rcases first_or_refusesAll c f with ⟨before, d, after, hfirst, -⟩ | ⟨hnone, -⟩
  · exact .inr ⟨before, d, after, hfirst, by rw [hfirst.find?_eq]⟩
  · refine .inl ⟨hnone, ?_⟩
    rw [List.find?_eq_none.2 fun d hd => Bool.eq_false_iff.1 (hnone d hd)]

theorem updateOne_asList (hu : u.SparesId) (hid : ∀ d ∈ c.documents, d.IdFirst)
    {o : UpdateOutcome} {c' : Collection} (h : outcome c (updateOne f u false) = (.ok o, c')) :
    f.RefusesAll c.documents ∧ c'.documents = c.documents ∧
        o = { matched := 0, modified := 0, upserted := none } ∨
      ∃ before d after new modified, f.First c.documents before d after ∧ u.Makes d new modified ∧
        c'.documents = before ++ new :: after ∧
        o = { matched := 1, modified := modified.toNat, upserted := none } := by
  rcases first_or_refusesAll c f with ⟨before, d, after, hfirst, hp⟩ | ⟨hnone, hp⟩
  · have hget : c.documents[before.length]? = some d := by simp [hfirst.split]
    cases hstaged : c.staged u d with
    | error e =>
        rw [(yields_updateOne_error hp hget hstaged).outcome] at h
        cases h
    | ok updated =>
        have hmakes := makes_of_staged hu (hid d (List.mem_of_getElem? hget)) hstaged
        refine .inr ⟨before, d, after, updated.getD d, updated.isSome, hfirst, hmakes, ?_⟩
        cases updated with
        | none =>
            rw [(yields_updateOne_unchanged hp hget hstaged).outcome] at h
            cases h
            exact ⟨hfirst.split, rfl⟩
        | some new =>
            rw [(yields_updateOne hp hget hstaged).outcome] at h
            cases h
            refine ⟨?_, rfl⟩
            rw [documents_replaced, hfirst.split]
            simp
  · rw [(yields_updateOne_none hp).outcome] at h
    cases h
    exact .inl ⟨hnone, rfl, rfl⟩

theorem updateMany_asList (hu : u.SparesId) (hid : ∀ d ∈ c.documents, d.IdFirst)
    {o : UpdateOutcome} {c' : Collection} (h : outcome c (updateMany f u) = (.ok o, c')) :
    List.Forall₂ (Updated f u) c.documents c'.documents ∧
      o = { matched := c.documents.countP f.passes
            modified := c.documents.countP fun d => f.passes d && u.modifies d
            upserted := none } := by
  cases hstaged : c.stagedAll u (c.matching f) with
  | error e =>
      rw [(yields_updateMany_error hstaged).outcome] at h
      cases h
  | ok changes =>
      rw [(yields_updateMany hstaged).outcome] at h
      cases h
      obtain ⟨docs', hset, hall, hlength⟩ := exists_set_stagedAll hu [] hid hstaged
      rw [documents_replacedAll, ← hlength, ← length_matchingFrom f 0 c.documents]
      exact ⟨hset ▸ hall, rfl⟩

theorem deleteOne_asList (c : Collection) (f : Filter) :
    f.RefusesAll c.documents ∧ outcome c (deleteOne f) = (.ok 0, c) ∨
      ∃ before d after c', f.First c.documents before d after ∧
        outcome c (deleteOne f) = (.ok 1, c') ∧ c'.documents = before ++ after := by
  rcases first_or_refusesAll c f with ⟨before, d, after, hfirst, hp⟩ | ⟨hnone, hp⟩
  · refine .inr ⟨before, d, after, _, hfirst, (yields_deleteOne hp).outcome, ?_⟩
    rw [documents_removed, hfirst.split,
      List.eraseIdx_append_of_length_le (Nat.le_refl _), Nat.sub_self, List.eraseIdx_cons_zero]
  · exact .inl ⟨hnone, (yields_deleteOne_none hp).outcome⟩

theorem deleteMany_asList (c : Collection) (f : Filter) :
    ∃ c', outcome c (deleteMany f) = (.ok (c.documents.countP f.passes), c') ∧
      c'.documents = (c.documents.filter fun d => !f.passes d) ∧
      outcome c' (Collection.count f) = (.ok 0, c') := by
  have hleft : (c.removedAll ((c.matching f).map (·.2)).reverse).documents =
      c.documents.filter fun d => !f.passes d := by
    rw [documents_removedAll, List.foldl_reverse]
    exact foldr_eraseIdx f [] c.documents
  refine ⟨_, (yields_deleteMany f c).outcome.trans ?_, hleft, ?_⟩
  · rw [← length_matchingFrom f 0 c.documents]
    rfl
  · rw [outcome_count, hleft, List.countP_eq_zero.2]
    intro d hd
    simpa using (List.mem_filter.1 hd).2

end Operations

end Collection

/-- **Collections are lists.** After any calls on a collection that was opened, the operations with
a filter act on its documents as on a plain list: each of them on the first document that passes or
on all that pass, and on no other. -/
theorem Call.actsAsList_runAll {c : Collection} (h : c.Opened) (calls : List (Call × PatternCache))
    (f : Filter) {j : Json} {u : Update} (hu : Update.ofJson j = .ok u) :
    (runAll c calls).ActsAsList f u := by
  have hid : ∀ d ∈ (runAll c calls).documents, d.IdFirst :=
    ((moves_runAll c calls).keeps Collection.Coherent.move h.coherent).idFirst
  have hspares : u.SparesId := Update.sparesId_ofJson hu
  exact {
    findOne := Collection.findOne_asList _ f
    count := Collection.outcome_count _ f
    updateOne := fun _ _ => Collection.updateOne_asList hspares hid
    updateMany := fun _ _ => Collection.updateMany_asList hspares hid
    deleteOne := Collection.deleteOne_asList _ f
    deleteMany := Collection.deleteMany_asList _ f }

/-- An update of the age, for two documents of one name between others. -/
theorem Call.actsAsList_runAll_pets :
    ∃ u, Update.ofJson (.object [("$inc", .object [("age", .ofInt 1)])]) = .ok u ∧
      (runAll (.empty "pets" none {} (.sequential 0))
        [(.insertMany [.object [("name", .string "Tom")],
            .object [("name", .string "Rex"), ("age", .ofInt 3)],
            .object [("name", .string "Rex")]], .empty),
          (.deleteOne (.object [("name", .string "Tom")]), .empty)]).ActsAsList
        (.field "name" (.eq (.string "Rex"))) u :=
  ⟨_, rfl, @actsAsList_runAll _ (.empty "pets" none {} (.sequential 0)) _ _
    (.object [("$inc", .object [("age", .ofInt 1)])]) _ rfl⟩

end DocStore
