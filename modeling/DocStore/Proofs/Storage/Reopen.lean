import DocStore.Proofs.Storage.Equivalence

/-!
# Opening a file again

A file that can be opened and ends with a line feed is only appended to by the changes that follow,
and opening it again gives the documents that were held (`exists_reopened`). Records name documents
by their ids, so a document has to be the first of its id to be replaced or removed. A last line
without a line feed is spoilt by the first record after it.
-/

set_option autoImplicit false

namespace DocStore

/-! ## Documents that are kept -/

namespace Document

/-- A document, or one that is alike. -/
def Kept (a b : Document) : Prop := a = b ∨ a.Alike b

theorem likeness_kept : Likeness Kept where
  symm := by
    rintro a b (rfl | h)
    · exact .inl rfl
    · exact .inr (likeness_alike.symm h)
  trans := by
    rintro a b c (rfl | h) (rfl | h')
    · exact .inl rfl
    · exact .inr h'
    · exact .inr h
    · exact .inr (likeness_alike.trans h h')
  same := by
    rintro a b (rfl | h)
    · exact DocumentId.same_refl _
    · exact h.same

end Document

namespace JournalRecord

variable {E F : Document → Document → Prop}

theorem Alike.mono (hEF : ∀ {a b}, E a b → F a b) {r r' : JournalRecord} (h : Alike E r r') :
    Alike F r r' := by
  cases h with
  | insert h => exact .insert (hEF h)
  | replace hid h => exact .replace hid (hEF h)
  | remove hid => exact .remove hid

theorem Decodes.mono (hEF : ∀ {a b}, E a b → F a b) {r : JournalRecord} (h : r.Decodes E) :
    r.Decodes F := by
  obtain ⟨r', hline, halike⟩ := h
  exact ⟨r', hline, halike.mono hEF⟩

end JournalRecord

/-- The first document of an id is found among documents of the same ids. -/
theorem Replayed.position?_congr {as bs : List Document}
    (h : List.Forall₂ (fun a b => a.id.same b.id = true) as bs) {i j : DocumentId}
    (hid : i.same j = true) : position? as i = position? bs j := by
  induction h with
  | nil => rfl
  | @cons a b as bs head tail ih =>
      have hsame : a.id.same i = b.id.same j := by
        rw [DocumentId.same_congr head, DocumentId.same_comm b.id, DocumentId.same_comm b.id,
          DocumentId.same_congr hid]
      rw [position?, position?] at ih ⊢
      rw [List.findIdx?_cons, List.findIdx?_cons, hsame, ih]

/-! ## Changes -/

/-- The document that is replaced or removed is the first of its id. Among documents of different
ids every one is: `Storage.addressed_of_distinct`. -/
def StorageOperation.Addressed (s : Storage) : StorageOperation → Prop
  | replace position _ => ∀ old, s.documents[position]? = some old →
      Replayed.position? s.documents old.id = some position
  | remove position => ∀ old, s.documents[position]? = some old →
      Replayed.position? s.documents old.id = some position
  | _ => True

namespace Storage

/-- Changes of documents that are the first of their ids, with records that decode to equal ones. -/
def Replayable (s : Storage) : List StorageOperation → Prop
  | [] => True
  | op :: rest =>
    op.isChange = true ∧ op.Addressed s ∧
      (∀ r ∈ op.records s, r.Decodes fun a b => a.equal b = true) ∧
        ∀ s', s.perform op = .ok s' → Replayable s' rest

/-- Among documents of different ids each is the first of its id. -/
theorem addressed_of_distinct {s : Storage} (h : Distinct s.documents) (op : StorageOperation) :
    op.Addressed s := by
  have hfirst {position : Nat} {old : Document} (hold : s.documents[position]? = some old) :
      Replayed.position? s.documents old.id = some position := by
    have hself : List.Forall₂ Document.Kept s.documents s.documents :=
      List.forall₂_same.2 fun d _ => .inl rfl
    exact Document.likeness_kept.position?_eq hself h hold (DocumentId.same_refl _)
  cases op with
  | replace position doc => exact fun old hold => hfirst hold
  | remove position => exact fun old hold => hfirst hold
  | _ => trivial

/-- The file was only appended to, and gives the documents of the storage. -/
structure Continues (file : Bytes) (s : Storage) : Prop where
  journaled : Journaled Document.Kept s
  appended : ∃ j, s.journal = some j ∧ file <+: j.contents

variable {file : Bytes} {s : Storage}

theorem Continues.change (h : Continues file s) {r : JournalRecord}
    (hr : r.Decodes fun a b => a.equal b = true) {documents : List Document}
    (happly : ∀ replayed r', List.Forall₂ Document.Kept replayed s.documents →
      JournalRecord.Alike Document.Kept r' r →
        ∃ replayed', Replayed.applyRecord replayed r' = .ok replayed' ∧
          List.Forall₂ Document.Kept replayed' documents) :
    Continues file (s.change r documents).1 := by
  obtain ⟨j, hj, hfile⟩ := h.appended
  refine ⟨h.journaled.change (hr.alike.mono .inr) happly, (j.append r).1, ?_, ?_⟩
  · rw [Storage.change, hj]
  · rw [Journal.contents_append]
    exact hfile.trans (List.prefix_append _ _)

/-- **One change.** It is appended to the file. -/
theorem Continues.perform (h : Continues file s) {op : StorageOperation}
    (hchange : op.isChange = true) (haddressed : op.Addressed s)
    (hr : ∀ r ∈ op.records s, r.Decodes fun a b => a.equal b = true) :
    ∃ s', s.perform op = .ok s' ∧ Continues file s' := by
  -- The records hold ids, and replay finds the same positions by them.
  have hsame {replayed : List Document}
      (hreplayed : List.Forall₂ Document.Kept replayed s.documents) :
      List.Forall₂ (fun a b => a.id.same b.id = true) replayed s.documents :=
    hreplayed.imp fun _ _ => Document.likeness_kept.same
  cases op with
  | insert doc =>
      refine ⟨_, rfl, h.change (hr _ List.mem_cons_self) fun replayed r' hreplayed halike => ?_⟩
      cases halike with
      | insert hdoc =>
          exact ⟨_, rfl, List.rel_append hreplayed (.cons hdoc .nil)⟩
  | replace position doc =>
      refine ⟨_, perform_replace s position doc, ?_⟩
      cases hold : s.documents[position]? with
      | none => exact h
      | some old =>
          refine h.change (hr _ (by simp [StorageOperation.records, hold]))
            fun replayed r' hreplayed halike => ?_
          cases halike with
          | replace hid hdoc =>
              refine ⟨_, ?_, forall₂_set hreplayed hdoc position⟩
              rw [Replayed.applyRecord, Replayed.position?_congr (hsame hreplayed) hid,
                haddressed old hold]
  | remove position =>
      refine ⟨_, perform_remove s position, ?_⟩
      cases hold : s.documents[position]? with
      | none => exact h
      | some old =>
          refine h.change (hr _ (by simp [StorageOperation.records, hold]))
            fun replayed r' hreplayed halike => ?_
          cases halike with
          | remove hid =>
              refine ⟨_, ?_, forall₂_eraseIdx hreplayed position⟩
              rw [Replayed.applyRecord, Replayed.position?_congr (hsame hreplayed) hid,
                haddressed old hold]
  | flush | compact | reopen => cases hchange

/-- **A run of changes.** They are appended to the file, one after the other. -/
theorem Continues.performAll (h : Continues file s) {ops : List StorageOperation}
    (hops : Replayable s ops) : ∃ s', s.performAll ops = .ok s' ∧ Continues file s' := by
  induction ops generalizing s with
  | nil => exact ⟨s, rfl, h⟩
  | cons op rest ih =>
      obtain ⟨hchange, haddressed, hr, hrest⟩ := hops
      obtain ⟨s₁, hs₁, h₁⟩ := h.perform hchange haddressed hr
      obtain ⟨s', hs', h'⟩ := ih h₁ (hrest s₁ hs₁)
      refine ⟨s', ?_, h'⟩
      rw [Storage.performAll, hs₁]
      exact hs'

/-! ## Opening again -/

theorem exists_openFile {path : String} {durability : Durability} {notes : List LogEntry}
    (h : openFile path durability file = .ok (s, notes)) :
    ∃ r, Replayed.ofBytes file = .ok r ∧ s.documents = r.documents ∧
      s.journal = some (.ofFile path durability file r.records) := by
  obtain ⟨r, hr, hs⟩ := bind_eq_ok.1 h
  cases hs
  exact ⟨r, hr, rfl, rfl⟩

theorem openFile_eq_ok {path : String} {durability : Durability} {r : Replayed}
    (h : Replayed.ofBytes file = .ok r) :
    openFile path durability file = .ok
      (⟨r.documents, some (.ofFile path durability file r.records)⟩, [openNote path r]) := by
  rw [openFile, h]
  rfl

theorem continues_openFile {path : String} {durability : Durability} {notes : List LogEntry}
    (h : openFile path durability file = .ok (s, notes)) (hend : Replayed.EndsLine file) :
    Continues file s := by
  obtain ⟨r, hr, hdocuments, hj⟩ := exists_openFile h
  refine ⟨⟨_, r, hj, ?_, ?_, rfl, ?_⟩, _, hj, ?_⟩
  · rw [Journal.contents_ofFile]
    exact hend
  · rw [Journal.contents_ofFile]
    exact hr
  · rw [hdocuments]
    exact List.forall₂_same.2 fun d _ => .inl rfl
  · exact (Journal.contents_ofFile path durability file r.records).symm ▸ List.prefix_rfl

/-- **What was held is found again.** A file that can be opened, and that ends with a line feed if
anything is appended, is only appended to by changes, and opening it after that gives the documents
that were held, in their order: the same ones, or equal ones where they were read back. -/
theorem exists_reopened {path : String} {durability : Durability} {file : Bytes} {s : Storage}
    {notes : List LogEntry} (hopen : openFile path durability file = .ok (s, notes))
    {changes : List StorageOperation} (hend : changes ≠ [] → Replayed.EndsLine file)
    (hchanges : Replayable s changes) (again : Durability) :
    ∃ s' file' s'' notes', s.performAll changes = .ok s' ∧ s'.close.1 = some file' ∧
      file <+: file' ∧ openFile path again file' = .ok (s'', notes') ∧
      List.Forall₂ (fun a b => a = b ∨ a.equal b = true) s''.documents s'.documents := by
  cases changes with
  | nil =>
      -- Nothing is appended, so the end of the file does not matter.
      obtain ⟨r, hr, hdocuments, hj⟩ := exists_openFile hopen
      refine ⟨s, file, _, _, rfl, ?_, List.prefix_rfl, openFile_eq_ok hr, ?_⟩
      · simp [close, hj, Journal.close]
      · rw [hdocuments]
        exact List.forall₂_same.2 fun d _ => .inl rfl
  | cons op rest =>
      obtain ⟨s', hs', hcontinues⟩ :=
        (continues_openFile hopen (hend (List.cons_ne_nil _ _))).performAll hchanges
      obtain ⟨j, r, hj, -, hr, -, hdocuments⟩ := hcontinues.journaled
      obtain ⟨j', hj', hprefix⟩ := hcontinues.appended
      obtain rfl : j = j' := by
        rw [hj] at hj'
        exact Option.some.inj hj'
      refine ⟨s', j.contents, _, _, hs', ?_, hprefix, openFile_eq_ok hr, hdocuments.imp ?_⟩
      · simp [close, hj, Journal.close]
      · rintro a b (rfl | h)
        · exact .inl rfl
        · exact .inr h.equal

/-! ## Two files -/

/-- A file with a record and an empty line. -/
def petsFile : Bytes :=
  JournalRecord.utf8 (JournalRecord.insert (.pet (.int 1) "Rex")).toLine ++ [13, 10]

/-- The storage of that file. -/
def oldPets : Storage :=
  { documents := [.pet (.int 1) "Rex"], journal := some (.ofFile "pets" .safe petsFile 1) }

theorem openFile_petsFile : openFile "pets" .safe petsFile =
    .ok (oldPets, [openNote "pets" ⟨[.pet (.int 1) "Rex"], 1⟩]) := by
  have hline : JournalRecord.ofLine (JournalRecord.insert (.pet (.int 1) "Rex")).line =
      .ok (.insert (.pet (.int 1) "Rex")) :=
    JournalRecord.ofLine_line_eq_ok.2 ⟨_, rfl, by decide, rfl⟩
  have hrecord := Replayed.ofBytes_append_toLine Replayed.endsLine_nil (s := .empty) rfl hline rfl
  have hfile : Replayed.ofBytes petsFile = .ok ⟨[.pet (.int 1) "Rex"], 1⟩ := by
    rw [List.nil_append] at hrecord
    rw [petsFile, Replayed.ofBytes_append (JournalRecord.endsLine_toLine _) hrecord,
      show Replayed.lines [13, 10] = [[]] from rfl, Replayed.applyLines,
      show JournalRecord.ofUtf8? [] = some "" from rfl]
    rfl
  exact openFile_eq_ok hfile

/-- A pet is added, the first one gets another name, and the new one is removed. -/
def petChanges : List StorageOperation :=
  [.insert (.pet (.int 2) "Tom"), .replace 0 (.pet (.int 1) "Max"), .remove 1]

theorem replayable_petChanges : Replayable oldPets petChanges := by
  refine ⟨rfl, trivial, ?_, ?_⟩
  · rintro _ (_ | ⟨_, ⟨⟩⟩)
    exact decodes_of_reread rfl (by decide) rfl (.insert rfl)
  rintro _ ⟨⟩
  refine ⟨rfl, ?_, ?_, ?_⟩
  · rintro _ ⟨⟩
    rfl
  · rintro _ (_ | ⟨_, ⟨⟩⟩)
    exact decodes_of_reread rfl (by decide) rfl (.replace rfl rfl)
  rintro _ ⟨⟩
  refine ⟨rfl, ?_, ?_, fun _ _ => trivial⟩
  · rintro _ ⟨⟩
    rfl
  · rintro _ (_ | ⟨_, ⟨⟩⟩)
    exact decodes_of_reread rfl (by decide) rfl (.remove rfl)

theorem exists_reopened_pets :
    (openFile "pets" .safe petsFile = .ok (oldPets, [openNote "pets" ⟨[.pet (.int 1) "Rex"], 1⟩]) ∧
      Replayed.EndsLine petsFile ∧ Replayable oldPets petChanges) ∧
    ∃ s' file' s'' notes', oldPets.performAll petChanges = .ok s' ∧ s'.close.1 = some file' ∧
      petsFile <+: file' ∧ openFile "pets" .manual file' = .ok (s'', notes') ∧
      List.Forall₂ (fun a b => a = b ∨ a.equal b = true) s''.documents s'.documents := by
  have hend : Replayed.EndsLine petsFile :=
    (JournalRecord.endsLine_toLine _).append fun b hb => by cases hb; rfl
  exact ⟨⟨openFile_petsFile, hend, replayable_petChanges⟩,
    exists_reopened openFile_petsFile (fun _ => hend) replayable_petChanges .manual⟩

/-- A file whose last line, a record, has no line feed. -/
def unendedFile : Bytes :=
  JournalRecord.utf8 "d9f76777 \x7b\"op\":\"insert\",\"doc\":\x7b\"_id\":1\x7d\x7d"

set_option maxRecDepth 20000 in
/-- **A record spoils a last line without a line feed**: the file is opened, a document is added
whose record decodes, and the file cannot be opened again. -/
theorem not_reopened_unended :
    (∃ s notes, openFile "pets" .safe unendedFile = .ok (s, notes)) ∧
    ((JournalRecord.insert (.make (.int 2) [])).Decodes fun a b => a.equal b = true) ∧
    ∀ s notes, openFile "pets" .safe unendedFile = .ok (s, notes) →
      ∃ s' file', s.performAll [.insert (.make (.int 2) [])] = .ok s' ∧
        s'.close.1 = some file' ∧ ∀ again, openFile "pets" .safe file' ≠ .ok again := by
  have hopens : (Replayed.ofBytes unendedFile).toOption.isSome = true := by decide +kernel
  have hfails : (Replayed.ofBytes (unendedFile ++
      JournalRecord.utf8 (JournalRecord.insert (.make (.int 2) [])).toLine)).toOption = none := by
    have hnone : (Replayed.ofBytes (unendedFile ++ JournalRecord.utf8
        (JournalRecord.insert (.make (.int 2) [])).toLine)).toOption.isSome = false := by
      decide +kernel
    simpa using hnone
  refine ⟨?_, decodes_of_reread rfl (by decide) rfl (.insert rfl), fun s notes h => ?_⟩
  · cases hr : Replayed.ofBytes unendedFile with
    | ok r => exact ⟨_, _, openFile_eq_ok hr⟩
    | error e =>
        rw [hr] at hopens
        cases hopens
  · obtain ⟨r, hr, hdocuments, hj⟩ := exists_openFile h
    refine ⟨_, unendedFile ++ JournalRecord.utf8 (JournalRecord.insert (.make (.int 2) [])).toLine,
      rfl, ?_, fun again hagain => ?_⟩
    · have hnew : (s.insert (.make (.int 2) [])).1.journal = some ((Journal.ofFile "pets" .safe
          unendedFile r.records).append (.insert (.make (.int 2) []))).1 := by
        rw [insert, change, hj]
      simp [close, hnew, Journal.close, Journal.contents_append]
    · obtain ⟨r', hr', -⟩ := exists_openFile hagain
      rw [hr'] at hfails
      cases hfails

end Storage

end DocStore
