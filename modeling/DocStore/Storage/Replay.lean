import DocStore.Storage.Record

/-!
# Replaying journals

A journal stands for the documents that its records give, applied in order to an empty list. Empty
lines count as lines but not as records.
-/

set_option autoImplicit false

namespace DocStore

/-- Documents with the number of records that gave them. -/
structure Replayed where
  documents : List Document
  records : Nat

namespace Replayed

/-- Nothing replayed yet. -/
def empty : Replayed := { documents := [], records := 0 }

/-- The position of the first document of an id. -/
def position? (documents : List Document) (id : DocumentId) : Option Nat :=
  documents.findIdx? fun d => d.id.same id

/-- Applies a record to documents. -/
def applyRecord (documents : List Document) : JournalRecord → Except LineFault (List Document)
  | .insert doc => .ok (documents ++ [doc])
  | .replace id doc =>
    match position? documents id with
    | some i => .ok (documents.set i doc)
    | none => .error (.replaceOfUnknown id.display)
  | .remove id =>
    match position? documents id with
    | some i => .ok (documents.eraseIdx i)
    | none => .error (.removeOfUnknown id.display)

/-- Applies a line that is a text. -/
def applyLine (s : Replayed) (line : String) : Except LineFault Replayed := do
  if line.isEmpty then return s
  let record ← JournalRecord.ofLine line
  return { documents := ← applyRecord s.documents record, records := s.records + 1 }

/-- The lines of a file, each up to its line feed and without a carriage return before that. What
follows the last line feed is a line if there is anything. -/
def lines : Bytes → List Bytes
  | [] => []
  | 10 :: rest => [] :: lines rest
  | 13 :: 10 :: rest => [] :: lines rest
  | b :: rest =>
    match lines rest with
    | [] => [[b]]
    | line :: more => (b :: line) :: more

/-- Applies lines in order, counted from a number. -/
def applyLines (s : Replayed) (number : Nat) : List Bytes → Result Replayed
  | [] => .ok s
  | bytes :: rest =>
    match JournalRecord.ofUtf8? bytes with
    | none => .error .unreadableText
    | some line =>
      match applyLine s line with
      | .error fault => .error (.corruption (.line number fault))
      | .ok s => applyLines s (number + 1) rest

/-- What a file stands for. -/
def ofBytes (file : Bytes) : Result Replayed := applyLines empty 1 (lines file)

end Replayed

end DocStore
