import DocStore.Proofs.Except
import DocStore.Proofs.Storage.Record
import DocStore.Storage.Journal
import DocStore.Storage.Replay

/-!
# What replaying does

A file that ends with a line feed can be replayed up to there, and what is appended to it afterwards
is replayed on what it gave: `ofBytes_append`. The contents of a journal, on disk or not, grow by
the line of each record and by nothing else. Replaying them after one more line applies the record
that the line decodes to.
-/

set_option autoImplicit false

namespace DocStore.Replayed

/-! ## Lines -/

/-- The file ends with a line feed, if it holds anything. -/
def EndsLine (file : Bytes) : Prop := ∀ b, file.getLast? = some b → b = 10

theorem endsLine_nil : EndsLine [] := fun _ h => by cases h

theorem EndsLine.append {a b : Bytes} (ha : EndsLine a) (hb : EndsLine b) : EndsLine (a ++ b) := by
  intro x hx
  rw [List.getLast?_append] at hx
  cases hl : b.getLast? with
  | none =>
      rw [hl] at hx
      exact ha x (by simpa using hx)
  | some y =>
      rw [hl] at hx
      cases hx
      exact hb _ hl

theorem EndsLine.tail {b : UInt8} {file : Bytes} (h : EndsLine (b :: file)) : EndsLine file := by
  intro x hx
  refine h x ?_
  rw [List.getLast?_cons, hx]
  rfl

theorem lines_eq_nil {file : Bytes} : lines file = [] ↔ file = [] := by
  constructor
  · intro h
    fun_cases lines file with
    | case1 => rfl
    | _ => simp_all [lines]
  · rintro rfl
    rfl

/-- A byte joins the line after it, unless it starts a line break. -/
theorem lines_cons {b : UInt8} {file : Bytes} (hfeed : b ≠ 10)
    (hreturn : b = 13 → file.head? ≠ some 10) :
    lines (b :: file) = match lines file with
      | [] => [[b]]
      | line :: more => (b :: line) :: more := by
  refine lines.eq_4 b file hfeed ?_
  rintro rest rfl rfl
  exact hreturn rfl rfl

/-- **What is appended after a line feed starts a line of its own.** -/
theorem lines_append {a : Bytes} (h : EndsLine a) (b : Bytes) :
    lines (a ++ b) = lines a ++ lines b := by
  fun_induction lines a with
  | case1 => rfl
  | case2 rest ih =>
      rw [List.cons_append, lines, ih h.tail]
      rfl
  | case3 rest ih =>
      rw [List.cons_append, List.cons_append, lines, ih h.tail.tail]
      rfl
  | case4 c rest hfeed hreturn hrest ih =>
      -- A last byte that is no line feed.
      rw [lines_eq_nil] at hrest
      subst hrest
      exact absurd (h c rfl) hfeed
  | case5 c rest hfeed hreturn line more hrest ih =>
      rw [List.cons_append, lines_cons hfeed, ih h.tail]
      · simp only [hrest, List.cons_append]
      · rintro rfl hhead
        cases rest with
        | nil => exact absurd (h 13 rfl) hfeed
        | cons d rest =>
            cases hhead
            exact hreturn rest rfl rfl

/-- A text without control characters is one line. -/
theorem lines_line {bytes : Bytes} (h : ∀ b ∈ bytes, 32 ≤ b.toNat) :
    lines (bytes ++ [10]) = [bytes] := by
  induction bytes with
  | nil => rfl
  | cons b rest ih =>
      have hb := h b List.mem_cons_self
      have hne : ∀ c : UInt8, c.toNat < 32 → b ≠ c := by
        rintro c hc rfl
        omega
      have hreturn : b ≠ 13 := hne 13 (by decide)
      rw [List.cons_append, lines_cons (hne 10 (by decide)) fun hb => absurd hb hreturn,
        ih fun c hc => h c (List.mem_cons_of_mem _ hc)]

/-! ## Applying lines -/

/-- Lines one after the other are applied one after the other. -/
theorem applyLines_append (s : Replayed) (number : Nat) (a b : List Bytes) :
    applyLines s number (a ++ b) =
      (applyLines s number a).bind fun s => applyLines s (number + a.length) b := by
  induction a generalizing s number with
  | nil => rfl
  | cons bytes rest ih =>
      simp only [List.cons_append, applyLines]
      cases JournalRecord.ofUtf8? bytes with
      | none => rfl
      | some line =>
          cases hline : applyLine s line with
          | error fault => simp [hline, Except.bind]
          | ok s' =>
              simp only [hline, ih, List.length_cons]
              rw [Nat.add_assoc, Nat.add_comm 1]

/-- **Appending.** What is appended to a file that ends with a line feed is applied to what the file
gave. -/
theorem ofBytes_append {a b : Bytes} (h : EndsLine a) {s : Replayed} (ha : ofBytes a = .ok s) :
    ofBytes (a ++ b) = applyLines s (1 + (lines a).length) (lines b) := by
  rw [ofBytes, lines_append h, applyLines_append]
  rw [ofBytes] at ha
  rw [ha]
  rfl

end DocStore.Replayed

namespace DocStore

/-! ## What journals hold -/

namespace JournalRecord

theorem utf8_toLine (r : JournalRecord) : utf8 r.toLine = utf8 r.line ++ [10] := by
  rw [toLine_eq, utf8_append]
  rfl

theorem endsLine_toLine (r : JournalRecord) : Replayed.EndsLine (utf8 r.toLine) := by
  intro b hb
  rw [utf8_toLine, List.getLast?_concat] at hb
  cases hb
  rfl

theorem lines_toLine (r : JournalRecord) : Replayed.lines (utf8 r.toLine) = [utf8 r.line] := by
  rw [utf8_toLine]
  exact Replayed.lines_line fun b hb => le_of_mem_utf8 r.plain_line hb

end JournalRecord

namespace Replayed

open JournalRecord

/-- **One more record.** After the line of a record, the journal gives what it gave before with the
record applied that the line decodes to. -/
theorem ofBytes_append_toLine {file : Bytes} (hend : EndsLine file) {s : Replayed}
    (hfile : ofBytes file = .ok s) {r r' : JournalRecord} (hr : ofLine r.line = .ok r')
    {documents : List Document} (happly : applyRecord s.documents r' = .ok documents) :
    ofBytes (file ++ utf8 r.toLine) = .ok { documents, records := s.records + 1 } := by
  have hline : applyLine s r.line = .ok { documents, records := s.records + 1 } := by
    have hempty : r.line.isEmpty = false := by
      simp [line]
    rw [applyLine, hempty, hr]
    simp [happly, bind, Except.bind, pure, Except.pure]
  rw [ofBytes_append hend hfile, lines_toLine, applyLines, ofUtf8?_utf8]
  simp [hline, applyLines]

end Replayed

namespace Journal

/-! ## Contents -/

@[simp] theorem contents_ofFile (path : String) (durability : Durability) (disk : Bytes)
    (records : Nat) : (ofFile path durability disk records).contents = disk :=
  List.append_nil disk

@[simp] theorem contents_sync (j : Journal) : j.sync.1.contents = j.contents :=
  List.append_nil j.contents

theorem contents_append (j : Journal) (r : JournalRecord) :
    (j.append r).1.contents = j.contents ++ JournalRecord.utf8 r.toLine := by
  have hwritten : (j.written r).contents = j.contents ++ JournalRecord.utf8 r.toLine :=
    (List.append_assoc _ _ _).symm
  rw [← hwritten]
  unfold append
  dsimp only
  split
  · exact contents_sync _
  · rfl

theorem records_append (j : Journal) (r : JournalRecord) :
    (j.append r).1.records = j.records + 1 := by
  unfold append
  dsimp only
  split <;> rfl

theorem contents_compact (j : Journal) (docs : List Document) :
    (j.compact docs).2.1.contents = ofDocuments docs :=
  List.append_nil _

end Journal

end DocStore
