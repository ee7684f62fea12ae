import DocStore.LogLevel
import DocStore.Storage.Durability
import DocStore.Storage.Replay
import DocStore.Text.Quoted

/-!
# Journals

A journal is a file to which the records of changes are appended. Records wait in a buffer until
they are brought to disk, which the durability of the journal decides.
-/

set_option autoImplicit false

namespace DocStore

/-- An open journal. -/
structure Journal where
  /-- The name of the file. -/
  path : String
  durability : Durability
  /-- What the file holds. -/
  disk : Bytes
  /-- What was appended but is not on disk. -/
  buffer : Bytes
  /-- The number of records since the journal was last brought to disk. -/
  pending : Nat
  /-- The number of records in the journal. -/
  records : Nat

/-- Sizes of a journal before and after it was compacted. -/
structure CompactionStats where
  sizeBefore : Nat
  sizeAfter : Nat
  recordsBefore : Nat
  recordsAfter : Nat
deriving DecidableEq, Repr

/-- The bytes that compacting saved. -/
def CompactionStats.saved (s : CompactionStats) : Nat := s.sizeBefore - s.sizeAfter

namespace Journal

/-- The journal of a file that was replayed. -/
def ofFile (path : String) (durability : Durability) (disk : Bytes) (records : Nat) : Journal :=
  { path, durability, disk, buffer := [], pending := 0, records }

/-- All that was appended, on disk or not. -/
def contents (j : Journal) : Bytes := j.disk ++ j.buffer

/-- The journal with all of it on disk. -/
def synced (j : Journal) : Journal := { j with disk := j.contents, buffer := [], pending := 0 }

/-- The name of the file as messages show it. -/
def shownPath (j : Journal) : String := Quoted.encode j.path

/-- What is logged when the journal is brought to disk. -/
def syncNote (j : Journal) : LogEntry :=
  { level := .trace, message := s!"synced {j.pending} journal records to " ++ j.shownPath }

/-- Brings the journal to disk. -/
def sync (j : Journal) : Journal × List LogEntry := (j.synced, [j.syncNote])

/-- The journal with a record in the buffer. -/
def written (j : Journal) (r : JournalRecord) : Journal :=
  { j with
    buffer := j.buffer ++ JournalRecord.utf8 r.toLine
    pending := j.pending + 1
    records := j.records + 1 }

/-- Appends a record and brings the journal to disk if it is time to. -/
def append (j : Journal) (r : JournalRecord) : Journal × List LogEntry :=
  let j := j.written r
  if j.durability.isDue j.pending then j.sync else (j, [])

/-- The journal of documents: one record for each. -/
def ofDocuments (docs : List Document) : Bytes :=
  docs.flatMap fun d => JournalRecord.utf8 (JournalRecord.insert d).toLine

/-- Writes the journal anew with one record for each document. -/
def compact (j : Journal) (docs : List Document) :
    CompactionStats × Journal × List LogEntry :=
  let before := j.synced
  let disk := ofDocuments docs
  let stats : CompactionStats := {
    sizeBefore := before.disk.length
    sizeAfter := disk.length
    recordsBefore := before.records
    recordsAfter := docs.length }
  let note : LogEntry := {
    level := .debug
    message := "compacted " ++ j.shownPath ++
      s!": {stats.recordsBefore} -> {stats.recordsAfter} records, {stats.saved} bytes saved" }
  (stats, { before with disk, records := docs.length }, [j.syncNote, note])

/-- Closes the journal: the file that it leaves. What is left in the buffer is written in any case;
it is brought to disk if that need not be asked for. -/
def close (j : Journal) : Bytes × List LogEntry :=
  (j.contents, if 0 < j.pending && j.durability.isAutomatic then [j.syncNote] else [])

end Journal

end DocStore
