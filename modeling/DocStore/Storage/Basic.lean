import DocStore.Storage.Journal

/-!
# Storage

A storage is a list of documents, with a journal of its changes if they are to last. The list
changes in the same way with a journal and without one.
-/

set_option autoImplicit false

namespace DocStore

/-- Documents in order, with the journal of their changes if there is one. -/
structure Storage where
  documents : List Document
  journal : Option Journal

namespace Storage

/-- Documents that are kept in memory only. -/
def inMemory (documents : List Document) : Storage := { documents, journal := none }

/-- What is logged when a journal is opened. -/
def openNote (path : String) (r : Replayed) : LogEntry :=
  { level := .debug
    message := "opened journal " ++ Quoted.encode path ++
      s!": {r.records} records, {r.documents.length} documents" }

/-- Opens the journal that a file holds. -/
def openFile (path : String) (durability : Durability) (file : Bytes) :
    Result (Storage × List LogEntry) := do
  let r ← Replayed.ofBytes file
  let journal := Journal.ofFile path durability file r.records
  return ({ documents := r.documents, journal := some journal }, [openNote path r])

/-- Changes the documents and writes a record of it. -/
def change (s : Storage) (r : JournalRecord) (documents : List Document) :
    Storage × List LogEntry :=
  match s.journal with
  | none => ({ s with documents }, [])
  | some j =>
    let (j, notes) := j.append r
    ({ documents, journal := some j }, notes)

@[simp] theorem change_documents (s : Storage) (r : JournalRecord) (documents : List Document) :
    (s.change r documents).1.documents = documents := by
  unfold change
  split <;> rfl

/-- Appends a document. -/
def insert (s : Storage) (doc : Document) : Storage × List LogEntry :=
  s.change (.insert doc) (s.documents ++ [doc])

/-- The document at a position. -/
def at? (s : Storage) (position : Nat) : Result Document :=
  match s.documents[position]? with
  | some d => .ok d
  | none => .error (.corruption (.noDocument position s.documents.length))

/-- Puts a document into the place of the one at a position. -/
def replace (s : Storage) (position : Nat) (doc : Document) :
    Result (Storage × List LogEntry) := do
  let old ← s.at? position
  return s.change (.replace old.id doc) (s.documents.set position doc)

/-- Removes the document at a position, and gives it. -/
def remove (s : Storage) (position : Nat) : Result (Document × Storage × List LogEntry) := do
  let old ← s.at? position
  return (old, s.change (.remove old.id) (s.documents.eraseIdx position))

/-- Brings the journal to disk, if there is one. -/
def flush (s : Storage) : Storage × List LogEntry :=
  match s.journal with
  | none => (s, [])
  | some j =>
    let (j, notes) := j.sync
    ({ s with journal := some j }, notes)

@[simp] theorem flush_documents (s : Storage) : s.flush.1.documents = s.documents := by
  unfold flush
  split <;> rfl

/-- Writes the journal anew with one record for each document, if there is one. -/
def compact? (s : Storage) : Option (CompactionStats × Storage × List LogEntry) :=
  s.journal.map fun j =>
    let (stats, j, notes) := j.compact s.documents
    (stats, { s with journal := some j }, notes)

theorem compact?_documents {s s' : Storage} {stats : CompactionStats} {notes : List LogEntry}
    (h : s.compact? = some (stats, s', notes)) : s'.documents = s.documents := by
  obtain ⟨j, _, h⟩ := Option.map_eq_some_iff.1 h
  cases h
  rfl

/-- Closes the storage: the file that its journal leaves, if there is one. -/
def close (s : Storage) : Option Bytes × List LogEntry :=
  match s.journal with
  | none => (none, [])
  | some j => (some j.close.1, j.close.2)

end Storage

end DocStore
