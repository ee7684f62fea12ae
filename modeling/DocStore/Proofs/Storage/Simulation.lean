import Mathlib.Data.List.Forall2
import DocStore.Proofs.Document
import DocStore.Proofs.Storage.Replay
import DocStore.Storage.Operation

/-!
# Storages with and without a file

A storage with a file goes through the same documents as one without, whatever is flushed, compacted
or opened again on the way, and its journal gives them at every moment: `Mirrors` is kept by every
operation whose records decode to equal ones. What counts as equal is left open as long as it is
symmetric and transitive and makes ids the same.
-/

set_option autoImplicit false

namespace DocStore

/-! ## Lists of related elements -/

section Lists

variable {α β : Type} {R : α → β → Prop} {as : List α} {bs : List β}

theorem exists_mem_of_forall₂ (h : List.Forall₂ R as bs) {a : α} (ha : a ∈ as) :
    ∃ b ∈ bs, R a b := by
  induction h with
  | nil => cases ha
  | cons head tail ih =>
      rcases List.mem_cons.1 ha with rfl | ha
      · exact ⟨_, List.mem_cons_self, head⟩
      · obtain ⟨b, hb, hab⟩ := ih ha
        exact ⟨b, List.mem_cons_of_mem _ hb, hab⟩

theorem forall₂_set (h : List.Forall₂ R as bs) {a : α} {b : β} (hab : R a b) (i : Nat) :
    List.Forall₂ R (as.set i a) (bs.set i b) := by
  induction h generalizing i with
  | nil => exact .nil
  | cons head tail ih =>
      cases i with
      | zero => exact .cons hab tail
      | succ i => exact .cons head (ih i)

theorem forall₂_eraseIdx (h : List.Forall₂ R as bs) (i : Nat) :
    List.Forall₂ R (as.eraseIdx i) (bs.eraseIdx i) := by
  induction h generalizing i with
  | nil => exact .nil
  | cons head tail ih =>
      cases i with
      | zero => exact tail
      | succ i => exact .cons head (ih i)

end Lists

/-! ## Equality of documents and records -/

/-- A notion of equal documents. It need not hold between a document and itself. -/
structure Likeness (E : Document → Document → Prop) : Prop where
  symm : ∀ {a b}, E a b → E b a
  trans : ∀ {a b c}, E a b → E b c → E a c
  same : ∀ {a b}, E a b → a.id.same b.id = true

/-- Records of the same change of equal documents. -/
inductive JournalRecord.Alike (E : Document → Document → Prop) :
    JournalRecord → JournalRecord → Prop
  | insert {a b : Document} (h : E a b) : Alike E (.insert a) (.insert b)
  | replace {i j : DocumentId} {a b : Document} (hid : i.same j = true) (h : E a b) :
      Alike E (.replace i a) (.replace j b)
  | remove {i j : DocumentId} (hid : i.same j = true) : Alike E (.remove i) (.remove j)

/-- The line of the record decodes to an equal record. -/
def JournalRecord.Decodes (E : Document → Document → Prop) (r : JournalRecord) : Prop :=
  ∃ r', ofLine r.line = .ok r' ∧ Alike E r' r

/-- No two documents have the same id. -/
def Distinct (docs : List Document) : Prop := docs.Pairwise fun a b => a.id.same b.id = false

/-- Documents whose ids are the same as those of distinct ones are distinct. -/
theorem Distinct.of_same {as bs : List Document} (hbs : Distinct bs)
    (h : List.Forall₂ (fun a b => a.id.same b.id = true) as bs) : Distinct as := by
  induction h with
  | nil => exact .nil
  | @cons a b as bs head tail ih =>
      obtain ⟨hb, hbs⟩ := List.pairwise_cons.1 hbs
      refine List.pairwise_cons.2 ⟨?_, ih hbs⟩
      intro c hc
      obtain ⟨d, hd, hcd⟩ := exists_mem_of_forall₂ tail hc
      rw [DocumentId.same_congr head, DocumentId.same_comm, DocumentId.same_congr hcd,
        DocumentId.same_comm]
      exact hb d hd

namespace Likeness

variable {E : Document → Document → Prop} (hE : Likeness E) {as bs cs : List Document}
include hE

/-- What equals something equals itself. -/
theorem left {a b : Document} (h : E a b) : E a a := hE.trans h (hE.symm h)

theorem forall₂_trans (h : List.Forall₂ E as bs) (h' : List.Forall₂ E bs cs) :
    List.Forall₂ E as cs := by
  induction h generalizing cs with
  | nil =>
      cases h'
      exact .nil
  | cons head tail ih =>
      cases h' with
      | cons head' tail' => exact .cons (hE.trans head head') (ih tail')

theorem forall₂_self (h : List.Forall₂ E as bs) : List.Forall₂ E as as := by
  induction h with
  | nil => exact .nil
  | cons head tail ih => exact .cons (hE.left head) ih

theorem distinct (h : List.Forall₂ E as bs) (hbs : Distinct bs) : Distinct as :=
  hbs.of_same (h.imp fun _ _ => hE.same)

/-- The position of a document is that of the equal one. -/
theorem position?_eq (h : List.Forall₂ E as bs) (hbs : Distinct bs) {i : Nat} {b : Document}
    (hb : bs[i]? = some b) {id : DocumentId} (hid : id.same b.id = true) :
    Replayed.position? as id = some i := by
  induction h generalizing i with
  | nil => cases hb
  | @cons a c as bs head tail ih =>
      obtain ⟨hc, hbs⟩ := List.pairwise_cons.1 hbs
      have hsame : a.id.same id = c.id.same b.id := by
        rw [DocumentId.same_congr (hE.same head), DocumentId.same_comm c.id,
          DocumentId.same_congr hid, DocumentId.same_comm]
      -- The documents before the one that is meant have other ids.
      cases i with
      | zero =>
          cases hb
          simp [Replayed.position?, List.findIdx?_cons, hsame, DocumentId.same_refl]
      | succ i =>
          have hrest := ih hbs hb
          rw [Replayed.position?] at hrest ⊢
          rw [List.findIdx?_cons, hsame, hc b (List.mem_of_getElem? hb), hrest]
          rfl

end Likeness

/-! ## Operations -/

namespace StorageOperation

/-- The records that an operation writes. -/
def records (s : Storage) : StorageOperation → List JournalRecord
  | insert doc => [.insert doc]
  | replace position doc => (s.documents[position]?.map fun old => .replace old.id doc).toList
  | remove position => (s.documents[position]?.map fun old => .remove old.id).toList
  | compact => s.documents.map .insert
  | flush => []
  | reopen _ => []

/-- A new document has a new id, and a version of a document the id of that document. -/
def Allowed (s : Storage) : StorageOperation → Prop
  | insert doc => doc.id.isIn (s.documents.map (·.id)) = false
  | replace position doc => ∀ old, s.documents[position]? = some old → doc.id.same old.id = true
  | _ => True

end StorageOperation

namespace Storage

/-- Operations that are allowed where they stand, and whose records decode to equal ones. -/
def Sound (E : Document → Document → Prop) (s : Storage) : List StorageOperation → Prop
  | [] => True
  | op :: rest =>
    op.Allowed s ∧ (∀ r ∈ op.records s, r.Decodes E) ∧
      ∀ s', s.perform op = .ok s' → Sound E s' rest

/-- The journal of a storage gives the documents of the storage, and has as many records as it
counts. -/
def Journaled (E : Document → Document → Prop) (s : Storage) : Prop :=
  ∃ j r, s.journal = some j ∧ Replayed.EndsLine j.contents ∧
    Replayed.ofBytes j.contents = .ok r ∧ r.records = j.records ∧
    List.Forall₂ E r.documents s.documents

/-- **A storage with a file mirrors documents in memory.** -/
structure Mirrors (E : Document → Document → Prop) (s : Storage) (docs : List Document) :
    Prop where
  documents : List.Forall₂ E s.documents docs
  distinct : Distinct s.documents
  journal : Journaled E s

variable {E : Document → Document → Prop} {s : Storage} {docs : List Document}

/-- A change is in the journal if replaying its record does to the replayed documents what the
change does to those of the storage. -/
theorem Journaled.change (h : Journaled E s) {r : JournalRecord} (hr : r.Decodes E)
    {documents : List Document}
    (happly : ∀ replayed r', List.Forall₂ E replayed s.documents → JournalRecord.Alike E r' r →
      ∃ replayed', Replayed.applyRecord replayed r' = .ok replayed' ∧
        List.Forall₂ E replayed' documents) :
    Journaled E (s.change r documents).1 := by
  obtain ⟨j, replayed, hj, hend, hreplay, hrecords, hdocs⟩ := h
  obtain ⟨r', hline, halike⟩ := hr
  obtain ⟨replayed', hrecord, hdocs'⟩ := happly replayed.documents r' hdocs halike
  refine ⟨(j.append r).1, { documents := replayed', records := replayed.records + 1 },
    ?_, ?_, ?_, ?_, ?_⟩
  · rw [Storage.change, hj]
  · rw [Journal.contents_append]
    exact hend.append r.endsLine_toLine
  · rw [Journal.contents_append]
    exact Replayed.ofBytes_append_toLine hend hreplay hline hrecord
  · rw [Journal.records_append, hrecords]
  · rw [change_documents]
    exact hdocs'

/-! ## Single operations -/

variable (hE : Likeness E)
include hE

theorem Mirrors.insert (h : Mirrors E s docs) {doc : Document}
    (hnew : doc.id.isIn (s.documents.map (·.id)) = false)
    (hr : (JournalRecord.insert doc).Decodes E) : Mirrors E (s.insert doc).1 (docs ++ [doc]) := by
  have hself : E doc doc := by
    obtain ⟨_, _, halike⟩ := hr
    cases halike with
    | insert halike => exact hE.left (hE.symm halike)
  refine ⟨?_, ?_, h.journal.change hr ?_⟩
  · rw [Storage.insert, change_documents]
    exact List.rel_append h.documents (.cons hself .nil)
  · rw [Storage.insert, change_documents]
    refine List.pairwise_append.2 ⟨h.distinct, List.pairwise_singleton _ _, ?_⟩
    intro a ha b hb
    rw [List.mem_singleton.1 hb, DocumentId.same_comm, Bool.eq_false_iff]
    rw [Bool.eq_false_iff] at hnew
    exact fun hsame => hnew (DocumentId.isIn_iff.2 ⟨a.id, List.mem_map.2 ⟨a, ha, rfl⟩, hsame⟩)
  · intro replayed r' hreplayed halike
    cases halike with
    | insert halike => exact ⟨_, rfl, List.rel_append hreplayed (.cons halike .nil)⟩

theorem Mirrors.replace (h : Mirrors E s docs) {position : Nat} {old doc : Document}
    (hold : s.documents[position]? = some old) (hid : doc.id.same old.id = true)
    (hr : (JournalRecord.replace old.id doc).Decodes E) :
    Mirrors E (s.change (.replace old.id doc) (s.documents.set position doc)).1
      (docs.set position doc) := by
  have hself : E doc doc := by
    obtain ⟨_, _, halike⟩ := hr
    cases halike with
    | replace _ halike => exact hE.left (hE.symm halike)
  refine ⟨?_, ?_, h.journal.change hr ?_⟩
  · rw [change_documents]
    exact forall₂_set h.documents hself position
  · rw [change_documents]
    -- The ids stay, as the old document could be put back into its place.
    have hset : s.documents.set position old = s.documents := by
      obtain ⟨_, hget⟩ := List.getElem?_eq_some_iff.1 hold
      rw [← hget]
      exact List.set_getElem_self _
    have hself : List.Forall₂ (fun a b : Document => a.id.same b.id = true)
        s.documents s.documents :=
      List.forall₂_same.2 fun d _ => DocumentId.same_refl d.id
    have hids := forall₂_set (a := doc) (b := old) hself hid position
    rw [hset] at hids
    exact h.distinct.of_same hids
  · intro replayed r' hreplayed halike
    cases halike with
    | replace hsame halike =>
        refine ⟨_, ?_, forall₂_set hreplayed halike position⟩
        rw [Replayed.applyRecord, hE.position?_eq hreplayed h.distinct hold hsame]

theorem Mirrors.remove (h : Mirrors E s docs) {position : Nat} {old : Document}
    (hold : s.documents[position]? = some old)
    (hr : (JournalRecord.remove old.id).Decodes E) :
    Mirrors E (s.change (.remove old.id) (s.documents.eraseIdx position)).1
      (docs.eraseIdx position) := by
  refine ⟨?_, ?_, h.journal.change hr ?_⟩
  · rw [change_documents]
    exact forall₂_eraseIdx h.documents position
  · rw [change_documents]
    exact h.distinct.sublist (List.eraseIdx_sublist _ _)
  · intro replayed r' hreplayed halike
    cases halike with
    | remove hsame =>
        refine ⟨_, ?_, forall₂_eraseIdx hreplayed position⟩
        rw [Replayed.applyRecord, hE.position?_eq hreplayed h.distinct hold hsame]

omit hE in
/-- Records that were written for documents one after another give equal documents. -/
theorem ofBytes_append_ofDocuments {docs : List Document}
    (hr : ∀ d ∈ docs, (JournalRecord.insert d).Decodes E) {file : Bytes} {r : Replayed}
    (hend : Replayed.EndsLine file) (hfile : Replayed.ofBytes file = .ok r) :
    Replayed.EndsLine (file ++ Journal.ofDocuments docs) ∧
      ∃ more, Replayed.ofBytes (file ++ Journal.ofDocuments docs) =
          .ok { documents := r.documents ++ more, records := r.records + docs.length } ∧
        List.Forall₂ E more docs := by
  induction docs generalizing file r with
  | nil =>
      rw [Journal.ofDocuments, List.flatMap_nil, List.append_nil]
      exact ⟨hend, [], by simpa using hfile, .nil⟩
  | cons d rest ih =>
      obtain ⟨r', hline, halike⟩ := hr d List.mem_cons_self
      cases halike with
      | @insert a _ halike =>
          -- The line of the first document belongs to the file that the others are appended to.
          obtain ⟨hend', more, hmore, hrest⟩ :=
            ih (fun e he => hr e (List.mem_cons_of_mem _ he))
              (hend.append (JournalRecord.insert d).endsLine_toLine)
              (Replayed.ofBytes_append_toLine hend hfile hline rfl)
          rw [Journal.ofDocuments, List.flatMap_cons, ← List.append_assoc]
          refine ⟨hend', a :: more, ?_, .cons halike hrest⟩
          rw [Journal.ofDocuments] at hmore
          rw [hmore]
          simp [Nat.add_assoc, Nat.add_comm 1]

omit hE in
theorem Mirrors.compact (h : Mirrors E s docs)
    (hr : ∀ d ∈ s.documents, (JournalRecord.insert d).Decodes E) :
    ∃ s', s.perform .compact = .ok s' ∧ Mirrors E s' docs := by
  obtain ⟨j, _, hj, -⟩ := h.journal
  obtain ⟨hend, replayed, hreplay, hdocs⟩ :=
    ofBytes_append_ofDocuments hr Replayed.endsLine_nil (r := .empty) rfl
  refine ⟨{ s with journal := some (j.compact s.documents).2.1 }, ?_, h.documents, h.distinct, ?_⟩
  · rw [Storage.perform, Storage.compact?, hj]
    rfl
  · refine ⟨_, { documents := replayed, records := s.documents.length }, rfl, ?_, ?_, rfl, hdocs⟩
    · rw [Journal.contents_compact]
      exact hend
    · rw [Journal.contents_compact]
      simpa [Replayed.empty] using hreplay

omit hE in
theorem Mirrors.flush (h : Mirrors E s docs) : Mirrors E s.flush.1 docs := by
  obtain ⟨j, replayed, hj, hend, hreplay, hrecords, hdocs⟩ := h.journal
  have hflush : s.flush.1 = { s with journal := some j.sync.1 } := by
    rw [Storage.flush, hj]
  rw [hflush]
  refine ⟨h.documents, h.distinct, j.sync.1, replayed, rfl, ?_, ?_, hrecords, hdocs⟩
  · rw [Journal.contents_sync]
    exact hend
  · rw [Journal.contents_sync]
    exact hreplay

/-- What is read when the file is opened again equals what was there. -/
theorem Mirrors.reopen (h : Mirrors E s docs) (durability : Durability) :
    ∃ s', s.perform (.reopen durability) = .ok s' ∧ Mirrors E s' docs := by
  obtain ⟨j, replayed, hj, hend, hreplay, hrecords, hdocs⟩ := h.journal
  refine ⟨⟨replayed.documents, some (.ofFile j.path durability j.contents replayed.records)⟩,
    ?_, ?_, ?_, ?_⟩
  · simp [perform, hj, openFile, Journal.close, hreplay, bind, Except.bind, Except.map, pure,
      Except.pure]
  · exact hE.forall₂_trans hdocs h.documents
  · exact hE.distinct hdocs h.distinct
  · refine ⟨_, replayed, rfl, ?_, ?_, rfl, hE.forall₂_self hdocs⟩
    · rw [Journal.contents_ofFile]
      exact hend
    · rw [Journal.contents_ofFile]
      exact hreplay

/-! ## Runs -/

/-- **One operation.** A storage with a file does what one in memory does. -/
theorem Mirrors.perform (h : Mirrors E s docs) {op : StorageOperation} (hallowed : op.Allowed s)
    (hr : ∀ r ∈ op.records s, r.Decodes E) :
    ∃ s' docs', s.perform op = .ok s' ∧ (inMemory docs).perform op = .ok (inMemory docs') ∧
      Mirrors E s' docs' := by
  cases op with
  | insert doc =>
      exact ⟨_, _, rfl, rfl, h.insert hE hallowed (hr _ List.mem_cons_self)⟩
  | replace position doc =>
      refine ⟨_, _, perform_replace s position doc, perform_replace_inMemory docs position doc, ?_⟩
      cases hold : s.documents[position]? with
      | some old =>
          refine h.replace hE hold (hallowed old hold) (hr _ ?_)
          simp [StorageOperation.records, hold]
      | none =>
          have hlength := List.getElem?_eq_none_iff.1 hold
          rw [h.documents.length_eq] at hlength
          rw [List.set_eq_of_length_le hlength]
          exact h
  | remove position =>
      refine ⟨_, _, perform_remove s position, perform_remove_inMemory docs position, ?_⟩
      cases hold : s.documents[position]? with
      | some old => exact h.remove hE hold (hr _ (by simp [StorageOperation.records, hold]))
      | none =>
          have hlength := List.getElem?_eq_none_iff.1 hold
          rw [h.documents.length_eq] at hlength
          rw [List.eraseIdx_of_length_le hlength]
          exact h
  | flush => exact ⟨_, _, rfl, rfl, h.flush⟩
  | compact =>
      obtain ⟨s', hs', hmirrors⟩ := h.compact fun d hd => hr _ (List.mem_map_of_mem hd)
      exact ⟨s', docs, hs', rfl, hmirrors⟩
  | reopen durability =>
      obtain ⟨s', hs', hmirrors⟩ := h.reopen hE durability
      exact ⟨s', docs, hs', rfl, hmirrors⟩

/-- **A run.** Operations that are allowed and whose records decode succeed on a storage with a
file, and lead to what they lead to in memory. -/
theorem Mirrors.performAll (h : Mirrors E s docs) {ops : List StorageOperation}
    (hops : Sound E s ops) :
    ∃ s' docs', s.performAll ops = .ok s' ∧ (inMemory docs).performAll ops = .ok (inMemory docs') ∧
      Mirrors E s' docs' := by
  induction ops generalizing s docs with
  | nil => exact ⟨s, docs, rfl, rfl, h⟩
  | cons op rest ih =>
      obtain ⟨hallowed, hr, hrest⟩ := hops
      obtain ⟨s₁, docs₁, hs₁, hdocs₁, h₁⟩ := h.perform hE hallowed hr
      obtain ⟨s', docs', hs', hdocs', h'⟩ := ih h₁ (hrest s₁ hs₁)
      refine ⟨s', docs', ?_, ?_, h'⟩
      · rw [Storage.performAll, hs₁]
        exact hs'
      · rw [Storage.performAll, hdocs₁]
        exact hdocs'

end Storage

end DocStore
