import Mathlib.Data.List.Flatten
import Mathlib.Data.List.Perm.Basic
import DocStore.Proofs.Storage.Replay
import DocStore.Storage.Operation

/-!
# Compacted journals

A document that a storage holds was written to its journal by a record that is at least as long as
the one that compacting writes for it, so the journal `Covers` the documents, whatever was replaced,
removed and compacted on the way. So a journal never grows when it is compacted, and compacting it
again changes nothing: `performAll_compact`.
-/

set_option autoImplicit false

namespace DocStore

namespace JournalRecord

/-! ## Sizes of lines -/

/-- The number of bytes of the line of a record. -/
def size (r : JournalRecord) : Nat := (utf8 r.toLine).length

/-- A checksum has eight digits of one byte each. -/
theorem length_utf8_hexText (checksum : UInt32) : (utf8 (hexText checksum)).length = 8 := by
  have hdigits : (Nat.toDigits 16 checksum.toNat).length ≤ 8 :=
    (Nat.length_toDigits_le_iff (by decide) (by decide)).2 checksum.toNat_lt
  have hbytes : ∀ c ∈ (hexText checksum).toList, (String.utf8EncodeChar c).length = 1 := by
    intro c hc
    obtain ⟨d, hd, rfl⟩ := exists_digitChar_hexText hc
    have hascii : ∀ d < 16, (String.utf8EncodeChar (Nat.digitChar d)).length = 1 := by decide
    exact hascii d hd
  rw [utf8_eq_flatMap, List.length_flatMap, List.map_congr_left hbytes, List.map_const',
    List.sum_replicate_nat, hexText, String.toList_ofList, List.length_append,
    List.length_replicate]
  omega

/-- Around its JSON text, a line has a checksum, a space and a line feed. -/
theorem size_eq (r : JournalRecord) : r.size = (utf8 r.toJson.render).length + 10 := by
  have hspace : (utf8 " ").length = 1 := by decide
  have hfeed : (utf8 "\n").length = 1 := by decide
  rw [size, toLine]
  simp only [utf8_append, List.length_append, length_utf8_hexText, hspace, hfeed]
  omega

/-- **A record that replaces a document is as long as one that inserts it**, and longer. -/
theorem size_insert_le (id : DocumentId) (doc : Document) :
    (insert doc).size ≤ (replace id doc).size := by
  have hnames : (utf8 (Json.quote "insert")).length ≤ (utf8 (Json.quote "replace")).length := by
    decide
  rw [size_eq, size_eq]
  simp only [toJson, Json.render, Json.renderFields, utf8_append, List.length_append]
  omega

end JournalRecord

namespace Journal

/-! ## Journals that cover documents -/

/-- A journal is as long as the lines that insert documents, and has as many records. -/
structure Covers (j : Journal) (docs : List Document) : Prop where
  size : (ofDocuments docs).length ≤ j.contents.length
  records : docs.length ≤ j.records

theorem length_ofDocuments_append (docs : List Document) (doc : Document) :
    (ofDocuments (docs ++ [doc])).length =
      (ofDocuments docs).length + (JournalRecord.insert doc).size := by
  simp [ofDocuments, JournalRecord.size]

theorem length_ofDocuments_eraseIdx (docs : List Document) (i : Nat) :
    (ofDocuments (docs.eraseIdx i)).length ≤ (ofDocuments docs).length :=
  ((docs.eraseIdx_sublist i).flatMap _).length_le

/-- A document that is put into the place of another one comes with its own line. -/
theorem length_ofDocuments_set {docs : List Document} {i : Nat} (hi : i < docs.length)
    (doc : Document) : (ofDocuments (docs.set i doc)).length =
      (JournalRecord.insert doc).size + (ofDocuments (docs.eraseIdx i)).length := by
  have hperm := ((List.set_perm_cons_eraseIdx hi doc).flatMap_right fun d =>
    JournalRecord.utf8 (JournalRecord.insert d).toLine).length_eq
  rw [List.flatMap_cons, List.length_append] at hperm
  exact hperm

variable {j : Journal} {docs : List Document}

/-- **One record.** Documents are covered after a record if they outgrow those before by its line at
most. -/
theorem Covers.append (h : j.Covers docs) (r : JournalRecord) {docs' : List Document}
    (hsize : (ofDocuments docs').length ≤ (ofDocuments docs).length + r.size)
    (hrecords : docs'.length ≤ docs.length + 1) : (j.append r).1.Covers docs' where
  size := by
    have hbefore := h.size
    rw [contents_append, List.length_append]
    rw [JournalRecord.size] at hsize
    omega
  records := by
    have hbefore := h.records
    rw [records_append]
    omega

theorem Covers.sync (h : j.Covers docs) : j.sync.1.Covers docs where
  size := by
    rw [contents_sync]
    exact h.size
  records := h.records

theorem covers_compact (j : Journal) (docs : List Document) : (j.compact docs).2.1.Covers docs where
  size := by rw [contents_compact]
  records := Nat.le_refl docs.length

end Journal

namespace Storage

/-! ## Runs -/

/-- A storage with a journal that covers its documents. -/
def Covered (s : Storage) : Prop := ∃ j, s.journal = some j ∧ j.Covers s.documents

variable {s : Storage}

theorem Covered.change (h : s.Covered) (r : JournalRecord) {documents : List Document}
    (hsize : (Journal.ofDocuments documents).length ≤
      (Journal.ofDocuments s.documents).length + r.size)
    (hrecords : documents.length ≤ s.documents.length + 1) : (s.change r documents).1.Covered := by
  obtain ⟨j, hj, hcovers⟩ := h
  refine ⟨(j.append r).1, by rw [Storage.change, hj], ?_⟩
  rw [change_documents]
  exact hcovers.append r hsize hrecords

/-- **One operation** other than opening the file again succeeds and keeps the documents
covered. -/
theorem Covered.perform (h : s.Covered) {op : StorageOperation}
    (hop : ∀ durability, op ≠ .reopen durability) :
    ∃ s', s.perform op = .ok s' ∧ s'.Covered := by
  cases op with
  | insert doc =>
      refine ⟨_, rfl, h.change (.insert doc) ?_ ?_⟩
      · rw [Journal.length_ofDocuments_append]
      · rw [List.length_append, List.length_singleton]
  | replace position doc =>
      refine ⟨_, perform_replace s position doc, ?_⟩
      cases hold : s.documents[position]? with
      | none => exact h
      | some old =>
          -- The record that replaces brings the line of the new document.
          have hposition := (List.getElem?_eq_some_iff.1 hold).1
          have hset := Journal.length_ofDocuments_set hposition doc
          have herased := Journal.length_ofDocuments_eraseIdx s.documents position
          have hline := JournalRecord.size_insert_le old.id doc
          refine h.change (.replace old.id doc) (by omega) ?_
          rw [List.length_set]
          omega
  | remove position =>
      refine ⟨_, perform_remove s position, ?_⟩
      cases s.documents[position]? with
      | none => exact h
      | some old =>
          have herased := Journal.length_ofDocuments_eraseIdx s.documents position
          have hfewer := (s.documents.eraseIdx_sublist position).length_le
          exact h.change (.remove old.id) (by omega) (by omega)
  | flush =>
      obtain ⟨j, hj, hcovers⟩ := h
      have hflush : s.flush.1 = { s with journal := some j.sync.1 } := by rw [Storage.flush, hj]
      refine ⟨_, rfl, j.sync.1, by rw [hflush], ?_⟩
      rw [flush_documents]
      exact hcovers.sync
  | compact =>
      obtain ⟨j, hj, -⟩ := h
      refine ⟨{ s with journal := some (j.compact s.documents).2.1 }, ?_, _, rfl,
        j.covers_compact s.documents⟩
      rw [Storage.perform, compact?, hj]
      rfl
  | reopen durability => exact absurd rfl (hop durability)

/-- **A run.** -/
theorem Covered.performAll (h : s.Covered) {ops : List StorageOperation}
    (hops : ∀ durability, .reopen durability ∉ ops) :
    ∃ s', s.performAll ops = .ok s' ∧ s'.Covered := by
  induction ops generalizing s with
  | nil => exact ⟨s, rfl, h⟩
  | cons op rest ih =>
      have hop : ∀ durability, op ≠ .reopen durability := fun durability hop =>
        hops durability (hop ▸ List.mem_cons_self)
      obtain ⟨s₁, hs₁, h₁⟩ := h.perform hop
      obtain ⟨s', hs', h'⟩ := ih h₁ fun durability hmem =>
        hops durability (List.mem_cons_of_mem op hmem)
      refine ⟨s', ?_, h'⟩
      rw [Storage.performAll, hs₁]
      exact hs'

/-! ## Compacting -/

/-- **What compacting leaves and reports**: the documents as they were, a record for each, the
sizes of the file before and after, of which the second is not greater, and a file that is not
changed when it is compacted again. -/
structure Compacted (s : Storage) (stats : CompactionStats) (s' : Storage) : Prop where
  documents : s'.documents = s.documents
  records : s'.journal.map (·.records) = some s.documents.length
  before : s.journal.map (fun j => (j.contents.length, j.records)) =
    some (stats.sizeBefore, stats.recordsBefore)
  after : s'.journal.map (fun j => (j.disk.length, j.records)) =
    some (stats.sizeAfter, stats.recordsAfter)
  size_le : stats.sizeAfter ≤ stats.sizeBefore
  records_le : stats.recordsAfter ≤ stats.recordsBefore
  again : ∃ stats' s'' notes, s'.compact? = some (stats', s'', notes) ∧
    s''.journal.map (·.disk) = s'.journal.map (·.disk)

theorem Covered.compacted (h : s.Covered) :
    ∃ stats s' notes, s.compact? = some (stats, s', notes) ∧ s.Compacted stats s' := by
  obtain ⟨j, hj, hcovers⟩ := h
  refine ⟨(j.compact s.documents).1, { s with journal := some (j.compact s.documents).2.1 },
    (j.compact s.documents).2.2, by rw [compact?, hj]; rfl, ?_⟩
  exact {
    documents := rfl
    records := rfl
    before := by rw [hj]; rfl
    after := rfl
    size_le := hcovers.size
    records_le := hcovers.records
    again := ⟨_, _, _, rfl, rfl⟩ }

/-- **Compacting never grows a journal.** After any operations on a storage with a new file, as long
as the file is not opened again, compacting keeps the documents, leaves a record for each, reports
sizes and counts of records that have not grown, and is done once for all. -/
theorem performAll_compact {path : String} {durability : Durability} {notes : List LogEntry}
    (hopen : openFile path durability [] = .ok (s, notes)) {ops : List StorageOperation}
    (hops : ∀ durability, .reopen durability ∉ ops) :
    ∃ s', s.performAll ops = .ok s' ∧
      ∃ stats s'' notes, s'.compact? = some (stats, s'', notes) ∧ s'.Compacted stats s'' := by
  have hcovered : s.Covered := by
    cases hopen
    exact ⟨_, rfl, Nat.zero_le _, Nat.zero_le _⟩
  obtain ⟨s', hs', h'⟩ := hcovered.performAll hops
  exact ⟨s', hs', h'.compacted⟩

/-- Two pets, of which one gets another name and the other goes. -/
def petOperations : List StorageOperation :=
  [.insert (.make (.int 1) [("name", .string "Rex")]), .insert (.make (.int 2) []),
    .replace 0 (.make (.int 1) [("name", .string "Max")]), .compact, .remove 1, .flush]

theorem performAll_compact_pets :
    openFile "pets" .safe [] = .ok
      ({ documents := [], journal := some (.ofFile "pets" .safe [] 0) },
        [openNote "pets" .empty]) ∧
      (∀ durability, .reopen durability ∉ petOperations) ∧
      ∃ s', performAll { documents := [], journal := some (.ofFile "pets" .safe [] 0) }
          petOperations = .ok s' ∧
        ∃ stats s'' notes, s'.compact? = some (stats, s'', notes) ∧ s'.Compacted stats s'' := by
  have hopen : openFile "pets" .safe [] = .ok
      ({ documents := [], journal := some (.ofFile "pets" .safe [] 0) },
        [openNote "pets" .empty]) := rfl
  have hops : ∀ durability, .reopen durability ∉ petOperations := by simp [petOperations]
  exact ⟨hopen, hops, performAll_compact hopen hops⟩

end Storage

end DocStore
