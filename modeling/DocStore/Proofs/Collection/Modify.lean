import DocStore.Collection.Write
import DocStore.Proofs.Collection.Action

/-!
# What updating and deleting does

New versions are staged without touching the collection, and positions are those of documents that
are there. So the writes of an update or a deletion cannot fail once they have begun.
-/

set_option autoImplicit false

namespace DocStore

open DocStore.Action

namespace Collection

/-! ## New versions -/

/-- The new version of a document, or none if the update changes nothing. -/
def staged (c : Collection) (u : Update) (doc : Document) : Result (Option Document) :=
  (u.apply doc.fields).bind fun (fields, effect) =>
    if effect.modified then
      (c.checked (Document.make doc.id fields) (some effect.touched)).map fun _ =>
        some (Document.make doc.id fields)
    else .ok none

/-- What was computed and checked before a new version counts as staged. -/
theorem staged_eq_some {c : Collection} {u : Update} {old doc : Document}
    (h : c.staged u old = .ok (some doc)) :
    ∃ fields effect, u.apply old.fields = .ok (fields, effect) ∧
      doc = Document.make old.id fields ∧ c.checked doc (some effect.touched) = .ok () := by
  unfold staged at h
  obtain ⟨⟨fields, effect⟩, happly, h⟩ := bind_eq_ok.1 h
  dsimp only at h
  split at h
  · obtain ⟨_, hchecked, heq⟩ := map_eq_ok.1 h
    cases heq
    exact ⟨fields, effect, happly, rfl, hchecked⟩
  · cases h

/-- The new versions of documents that an update changes, with their positions. -/
def stagedAll (c : Collection) (u : Update) :
    List (Document × Nat) → Result (List (Document × Nat))
  | [] => .ok []
  | (doc, position) :: rest =>
    (c.staged u doc).bind fun updated =>
      (stagedAll c u rest).map fun more => (updated.map (·, position)).toList ++ more

theorem yields_stageUpdate (u : Update) (doc : Document) (c : Collection) :
    Yields (stageUpdate u doc) c (c.staged u doc) c := by
  unfold staged
  cases hu : u.apply doc.fields with
  | error e => exact (yields_ofResult hu c).bind_error
  | ok result =>
      obtain ⟨fields, effect⟩ := result
      refine (yields_ofResult hu c).bind ?_
      have hcheck := yields_check (Document.make doc.id fields) (some effect.touched) c
      simp only [Except.bind]
      split
      · cases hc : c.checked (Document.make doc.id fields) (some effect.touched) with
        | error e => exact (hcheck.of_eq hc).bind_error
        | ok _ => exact (hcheck.of_eq hc).bind (yields_pure _ c)
      · exact yields_pure none c

theorem yields_stageUpdates (u : Update) (found : List (Document × Nat)) (c : Collection) :
    Yields (stageUpdates u found) c (c.stagedAll u found) c := by
  induction found with
  | nil => exact yields_pure [] c
  | cons e rest ih =>
      obtain ⟨doc, position⟩ := e
      have hstage := yields_stageUpdate u doc c
      unfold stagedAll
      cases hd : c.staged u doc with
      | error e => exact (hstage.of_eq hd).bind_error
      | ok updated =>
          refine (hstage.of_eq hd).bind ?_
          cases hr : c.stagedAll u rest with
          | error e => exact (ih.of_eq hr).bind_error
          | ok more => exact (ih.of_eq hr).bind (yields_pure _ c)

/-- What staging one more document adds. -/
theorem stagedAll_cons {c : Collection} {u : Update} {doc : Document} {position : Nat}
    {rest changes : List (Document × Nat)}
    (h : c.stagedAll u ((doc, position) :: rest) = .ok changes) :
    ∃ updated more, c.staged u doc = .ok updated ∧ c.stagedAll u rest = .ok more ∧
      changes = (updated.map (·, position)).toList ++ more := by
  unfold stagedAll at h
  obtain ⟨updated, hstaged, h⟩ := bind_eq_ok.1 h
  obtain ⟨more, hrest, heq⟩ := map_eq_ok.1 h
  exact ⟨updated, more, hstaged, hrest, heq.symm⟩

/-- A staged version is one of a document that was found, at its position. -/
theorem mem_of_stagedAll {c : Collection} {u : Update} {found changes : List (Document × Nat)}
    (h : c.stagedAll u found = .ok changes) {doc : Document} {position : Nat}
    (hmem : (doc, position) ∈ changes) :
    ∃ old, (old, position) ∈ found ∧ c.staged u old = .ok (some doc) := by
  induction found generalizing changes with
  | nil =>
      cases h
      cases hmem
  | cons e rest ih =>
      obtain ⟨updated, more, hd, hr, rfl⟩ := stagedAll_cons h
      rcases List.mem_append.1 hmem with hhead | htail
      · rw [Option.mem_toList, Option.map_eq_some_iff] at hhead
        obtain ⟨_, rfl, hpair⟩ := hhead
        cases hpair
        exact ⟨e.1, List.mem_cons_self, hd⟩
      · obtain ⟨old, hold, hstaged⟩ := ih hr htail
        exact ⟨old, List.mem_cons_of_mem _ hold, hstaged⟩

/-- Staging keeps the order of positions and adds none. -/
theorem positions_stagedAll {c : Collection} {u : Update} {found changes : List (Document × Nat)}
    (h : c.stagedAll u found = .ok changes) :
    (changes.map (·.2)).Sublist (found.map (·.2)) := by
  induction found generalizing changes with
  | nil =>
      cases h
      exact .slnil
  | cons e rest ih =>
      obtain ⟨updated, more, _, hr, rfl⟩ := stagedAll_cons h
      cases updated with
      | none => exact (ih hr).cons e.2
      | some doc => exact (ih hr).cons_cons e.2

/-! ## Positions -/

theorem position?_eq_some {c : Collection} {f : Filter} {position : Nat}
    (h : c.position? f = some position) :
    ∃ doc, c.documents[position]? = some doc ∧ f.holds doc.fields = true := by
  obtain ⟨hlt, hholds, _⟩ := List.findIdx?_eq_some_iff_getElem.1 h
  exact ⟨_, List.getElem?_eq_getElem hlt, hholds⟩

theorem mem_matching {c : Collection} {f : Filter} {doc : Document} {position : Nat} :
    (doc, position) ∈ c.matching f ↔
      c.documents[position]? = some doc ∧ f.holds doc.fields = true := by
  simp [matching, List.mk_mem_zipIdx_iff_getElem?]

theorem positions_matching (c : Collection) (f : Filter) :
    ((c.matching f).map (·.2)).Pairwise (· < ·) := by
  have hall : (c.documents.zipIdx.map (·.2)).Pairwise (· < ·) := by
    rw [List.zipIdx_map_snd]
    exact List.pairwise_lt_range'
  exact hall.sublist (List.filter_sublist.map _)

theorem lt_of_mem_matching {c : Collection} {f : Filter} {doc : Document} {position : Nat}
    (h : (doc, position) ∈ c.matching f) : position < c.documents.length :=
  (List.getElem?_eq_some_iff.1 (mem_matching.1 h).1).1

/-! ## Updating -/

/-- The collection with other documents at positions. -/
def replacedAll (c : Collection) (changes : List (Document × Nat)) : Collection :=
  changes.foldl (fun c e => c.replaced e.2 e.1) c

theorem yields_replaceAll {c : Collection} {changes : List (Document × Nat)}
    (h : ∀ e ∈ changes, e.2 < c.documents.length) :
    Yields (changes.forM fun e => replaceAt e.2 e.1) c (.ok ()) (c.replacedAll changes) := by
  induction changes generalizing c with
  | nil => exact yields_pure () c
  | cons e rest ih =>
      have hrest : ∀ e' ∈ rest, e'.2 < (c.replaced e.2 e.1).documents.length := by
        intro e' he'
        rw [documents_replaced, List.length_set]
        exact h e' (List.mem_cons_of_mem _ he')
      exact (yields_replaceAt e.1 (h e List.mem_cons_self)).bind (ih hrest)

/-- The insertion of what an update makes of the demands of a filter. -/
theorem yields_upsert {c : Collection} {f : Filter} {u : Update} {fields : Fields Value}
    {doc : Document} (hfields : u.newFields f = .ok fields)
    (hdoc : c.prepared c.ids (.object fields) = .ok doc) :
    Yields (upsert f u) c (.ok { matched := 0, modified := 0, upserted := some doc.id })
      ((c.drawn (.object fields)).inserted doc) := by
  have hprepare := (yields_prepare c.ids (.object fields) c).of_eq hdoc
  exact (yields_ofResult hfields c).bind ((yields_current c).bind (hprepare.bind
    ((yields_commit doc _).bind ((yields_logAbout _ _ _ _).bind (yields_pure _ _)))))

theorem yields_upsert_fields_error {c : Collection} {f : Filter} {u : Update} {e : Error}
    (h : u.newFields f = .error e) : Yields (upsert f u) c (.error e) c :=
  (yields_ofResult h c).bind_error

theorem yields_upsert_error {c : Collection} {f : Filter} {u : Update} {fields : Fields Value}
    {e : Error} (hfields : u.newFields f = .ok fields)
    (hdoc : c.prepared c.ids (.object fields) = .error e) :
    Yields (upsert f u) c (.error e) (c.drawn (.object fields)) := by
  have hprepare := (yields_prepare c.ids (.object fields) c).of_eq hdoc
  exact (yields_ofResult hfields c).bind ((yields_current c).bind hprepare.bind_error)

section updateOne

variable {c : Collection} {f : Filter} {u : Update} {orInsert : Bool} {position : Nat}
  {doc : Document}

/-- An update of one document is the update of the first that passes. -/
private theorem yields_updateOne_at (hp : c.position? f = some position)
    (hdoc : c.documents[position]? = some doc) {r : Result UpdateOutcome} {c' : Collection}
    (h : Yields (updateAt u position doc) c r c') :
    Yields (updateOne f u orInsert) c r c' := by
  have hat : c.storage.at? position = .ok doc := by
    unfold documents at hdoc
    simp [Storage.at?, hdoc]
  refine (yields_current c).bind ?_
  rw [hp]
  exact (yields_ofResult hat c).bind h

theorem yields_updateOne_error {e : Error} (hp : c.position? f = some position)
    (hdoc : c.documents[position]? = some doc) (h : c.staged u doc = .error e) :
    Yields (updateOne f u orInsert) c (.error e) c := by
  have hstage := (yields_stageUpdate u doc c).of_eq h
  exact yields_updateOne_at hp hdoc hstage.bind_error

theorem yields_updateOne_unchanged (hp : c.position? f = some position)
    (hdoc : c.documents[position]? = some doc) (h : c.staged u doc = .ok none) :
    Yields (updateOne f u orInsert) c
      (.ok { matched := 1, modified := 0, upserted := none }) c := by
  have hstage := (yields_stageUpdate u doc c).of_eq h
  exact yields_updateOne_at hp hdoc
    (hstage.bind ((yields_logAbout _ _ _ c).bind (yields_pure _ c)))

theorem yields_updateOne {updated : Document} (hp : c.position? f = some position)
    (hdoc : c.documents[position]? = some doc) (h : c.staged u doc = .ok (some updated)) :
    Yields (updateOne f u orInsert) c (.ok { matched := 1, modified := 1, upserted := none })
      (c.replaced position updated) := by
  have hstage := (yields_stageUpdate u doc c).of_eq h
  have hlt : position < c.documents.length := (List.getElem?_eq_some_iff.1 hdoc).1
  exact yields_updateOne_at hp hdoc (hstage.bind ((yields_logAbout _ _ _ c).bind
    ((yields_replaceAt updated hlt).bind (yields_pure _ _))))

theorem yields_updateOne_none (hp : c.position? f = none) :
    Yields (updateOne f u false) c (.ok { matched := 0, modified := 0, upserted := none }) c := by
  refine (yields_current c).bind ?_
  rw [hp]
  exact yields_pure _ c

theorem yields_updateOne_upsert (hp : c.position? f = none) {r : Result UpdateOutcome}
    {c' : Collection} (h : Yields (upsert f u) c r c') : Yields (updateOne f u true) c r c' := by
  refine (yields_current c).bind ?_
  rw [hp]
  exact h

end updateOne

theorem yields_updateMany {c : Collection} {f : Filter} {u : Update}
    {changes : List (Document × Nat)} (h : c.stagedAll u (c.matching f) = .ok changes) :
    Yields (updateMany f u) c
      (.ok { matched := (c.matching f).length, modified := changes.length, upserted := none })
      (c.replacedAll changes) := by
  have hstage := (yields_stageUpdates u (c.matching f) c).of_eq h
  have hlt : ∀ e ∈ changes, e.2 < c.documents.length := by
    intro e he
    obtain ⟨old, hold, _⟩ := mem_of_stagedAll h he
    exact lt_of_mem_matching hold
  exact (yields_current c).bind (hstage.bind ((yields_replaceAll hlt).bind
    ((yields_logAbout _ _ _ _).bind (yields_pure _ _))))

theorem yields_updateMany_error {c : Collection} {f : Filter} {u : Update} {e : Error}
    (h : c.stagedAll u (c.matching f) = .error e) :
    Yields (updateMany f u) c (.error e) c := by
  have hstage := (yields_stageUpdates u (c.matching f) c).of_eq h
  exact (yields_current c).bind hstage.bind_error

/-! ## Deleting -/

/-- The collection without the documents at positions, each taken when those before it are gone. -/
def removedAll (c : Collection) (positions : List Nat) : Collection := positions.foldl removed c

/-- From the last position to the first, each one is still that of a document. -/
theorem yields_removeAll {c : Collection} {positions : List Nat}
    (hdown : positions.Pairwise (· > ·)) (h : ∀ p ∈ positions, p < c.documents.length) :
    Yields (positions.forM fun p => discard (removeAt p)) c (.ok ())
      (c.removedAll positions) := by
  induction positions generalizing c with
  | nil => exact yields_pure () c
  | cons p rest ih =>
      obtain ⟨hp, hdown⟩ := List.pairwise_cons.1 hdown
      obtain ⟨old, hold⟩ : ∃ old, c.documents[p]? = some old :=
        ⟨_, List.getElem?_eq_getElem (h p List.mem_cons_self)⟩
      have hrest : ∀ q ∈ rest, q < (c.removed p).documents.length := by
        intro q hq
        -- The positions that are left lie below the one that is gone.
        have hlt := h p List.mem_cons_self
        rw [documents_removed, List.length_eraseIdx_of_lt hlt]
        have := hp q hq
        omega
      exact (yields_removeAt hold).discard.bind (ih hdown hrest)

theorem yields_deleteOne_none {c : Collection} {f : Filter} (hp : c.position? f = none) :
    Yields (deleteOne f) c (.ok 0) c := by
  refine (yields_current c).bind ?_
  rw [hp]
  exact yields_pure 0 c

theorem yields_deleteOne {c : Collection} {f : Filter} {position : Nat}
    (hp : c.position? f = some position) :
    Yields (deleteOne f) c (.ok 1) (c.removed position) := by
  obtain ⟨old, hold, _⟩ := position?_eq_some hp
  refine (yields_current c).bind ?_
  rw [hp]
  exact (yields_removeAt hold).bind ((yields_logAbout _ _ _ _).bind (yields_pure 1 _))

theorem yields_deleteMany (f : Filter) (c : Collection) :
    Yields (deleteMany f) c (.ok (c.matching f).length)
      (c.removedAll ((c.matching f).map (·.2)).reverse) := by
  have hdown : ((c.matching f).map (·.2)).reverse.Pairwise (· > ·) :=
    List.pairwise_reverse.2 (positions_matching c f)
  have hlt : ∀ p ∈ ((c.matching f).map (·.2)).reverse, p < c.documents.length := by
    intro p hp
    obtain ⟨e, he, rfl⟩ := List.mem_map.1 (List.mem_reverse.1 hp)
    exact lt_of_mem_matching he
  refine (yields_current c).bind ((yields_removeAll hdown hlt).bind
    ((yields_logAbout _ _ _ _).bind ?_))
  rw [List.length_map]
  exact yields_pure _ _

/-! ## The journal -/

theorem yields_flush (c : Collection) :
    Yields flush c (.ok ()) { c with storage := c.storage.flush.1 } :=
  (yields_current c).bind (yields_keepStorage _ _ c)

theorem yields_compact_none {c : Collection} (h : c.storage.compact? = none) :
    Yields compact c (.ok none) c := by
  refine (yields_current c).bind ?_
  rw [h]
  exact yields_pure none c

theorem yields_compact {c : Collection} {stats : CompactionStats} {storage : Storage}
    {notes : List LogEntry} (h : c.storage.compact? = some (stats, storage, notes)) :
    Yields compact c (.ok (some stats)) { c with storage } := by
  refine (yields_current c).bind ?_
  rw [h]
  exact (yields_keepStorage _ _ c).bind ((yields_logAbout _ _ _ _).bind (yields_pure _ _))

end Collection

end DocStore
