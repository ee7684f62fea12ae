import DocStore.Proofs.Storage.Writable
import DocStore.Proofs.Value.Lossy

/-!
# Records read back from their lines

The line of a record ends in its only line feed, and what is before that decodes to an equal record
if the record does not nest too deeply and its document is `Preserved`: the values are kept by their
JSON forms, and the doubles by their numerals. So nothing is lost in between, neither by the
checksum nor by the quoting of texts: `JournalRecord.ofLine_toLine`.
-/

set_option autoImplicit false

namespace DocStore

namespace Json.Numeral

/-- The double is read back from its shortest text. -/
def Rereads (f : Float) : Prop := read? (Decimal.Layout.json.format f).toList = some (.double f)

/-- Whether a number is the double, bit for bit. -/
def isDouble (f : Float) : Number → Bool
  | .integer _ => false
  | .double g => g.toBits == f.toBits

theorem isDouble_iff {f : Float} {n : Number} : isDouble f n = true ↔ n = .double f := by
  cases n with
  | integer n => simp [isDouble]
  | double g => simp [isDouble, Float.toBits_inj]

instance (f : Float) : Decidable (Rereads f) :=
  decidable_of_iff ((read? (Decimal.Layout.json.format f).toList).any (isDouble f)) (by
    simp only [Option.any_eq_true, isDouble_iff, exists_eq_right, Rereads])

end Json.Numeral

namespace Value

open Json.Numeral (Rereads)

/-- What the JSON form keeps is kept by the JSON text, if the numerals of the doubles are. -/
theorem Lossless.writable {v : Value} (hv : v.Lossless)
    (hdoubles : ∀ f, Inside (float f) v → Rereads f) : v.Writable := by
  refine everywhere_iff_inside.2 fun w hw => ?_
  have hlossy := lossless_iff.1 hv w hw
  cases w with
  | float f =>
      have hfinite : Binary64.isFinite f = true :=
        Bool.not_eq_false _ ▸ fun h => hlossy (.float h)
      have hnan := Binary64.isNaN_eq_false_of_isFinite hfinite
      exact ⟨hfinite, f, hdoubles f hw, Binary64.equal_iff.2 ⟨hnan, hnan, rfl⟩⟩
  | date t => exact lossy_date_iff.1 hlossy
  | object fields => exact wrappedDate?_toJsonFields.2 hlossy
  | _ => trivial

end Value

namespace Document

variable {d : Document}

/-- The values of a document are those that their JSON forms stand for, and its doubles are read
back from their texts. -/
structure Preserved (d : Document) : Prop where
  values : ∀ e ∈ d.fields, (Value.ofJson e.2.toJson).equal e.2 = true
  doubles : ∀ f, Value.Inside (.float f) d.toValue → Json.Numeral.Rereads f

/-- An object of which the first field holds an id is not in the form of a date. -/
theorem IdFirst.unwrapped (h : d.IdFirst) : Value.Unwrapped d.fields := by
  rw [h.fields_eq]
  cases d.fields.tail with
  | nil =>
      have hname : idField ≠ Value.dateField := by decide
      rw [Value.Unwrapped, Value.toJsonFields, Value.toJsonFields, Value.wrappedDate?,
        if_neg hname]
  | cons e rest => rfl

theorem Preserved.writable (hd : d.Preserved) (h : d.Regular) : d.toValue.Writable := by
  refine ⟨h.idFirst.unwrapped, Value.everywhereFields_iff.2 fun e he => ?_⟩
  have hregular : e.2.Regular := Value.everywhereFields_iff.1 h.fields.2 e he
  exact ((Value.lossless_iff_equal e.2 hregular).1 (hd.values e he)).writable fun f hf =>
    hd.doubles f (.field he hf)

end Document

/-- Ids are read back as the same keys: a text that was generated as one that was given. -/
theorem DocumentId.exists_reread (id : DocumentId) : ∃ j id', id.toValue.toJson.reread? = some j ∧
    JournalRecord.readId? j.merged = some id' ∧ id'.same id = true := by
  cases id with
  | int n =>
      refine ⟨_, .int n, Value.reread_int n, ?_, same_refl _⟩
      change (Checked.ofInt? n.toInt).map DocumentId.int = some (.int n)
      rw [Checked.ofInt?_toInt]
      rfl
  | string s => exact ⟨_, .string s, rfl, rfl, same_refl _⟩
  | generated s => exact ⟨_, .string s, rfl, rfl, same_iff.2 rfl⟩

namespace JournalRecord

/-- The document that a record brings, if it brings one. -/
def document? : JournalRecord → Option Document
  | insert doc => some doc
  | replace _ doc => some doc
  | remove _ => none

/-! ## Kinds of records -/

theorem reread_replace {id : DocumentId} {doc : Document} {i j : Json}
    (hi : id.toValue.toJson.reread? = some i) (hj : doc.toValue.toJson.reread? = some j) :
    (replace id doc).toJson.reread? =
      some (.object [("op", .string "replace"), ("id", i), ("doc", j)]) := by
  refine Option.map_eq_some_iff.2 ⟨_, Json.rereadFields?_cons.2 ⟨_, _, rfl, ?_, rfl⟩, rfl⟩
  refine Json.rereadFields?_cons.2 ⟨i, _, hi, ?_, rfl⟩
  exact Json.rereadFields?_cons.2 ⟨j, [], hj, rfl, rfl⟩

theorem reread_remove {id : DocumentId} {i : Json} (hi : id.toValue.toJson.reread? = some i) :
    (remove id).toJson.reread? = some (.object [("op", .string "remove"), ("id", i)]) := by
  refine Option.map_eq_some_iff.2 ⟨_, Json.rereadFields?_cons.2 ⟨_, _, rfl, ?_, rfl⟩, rfl⟩
  exact Json.rereadFields?_cons.2 ⟨i, [], hi, rfl, rfl⟩

theorem ofJson?_remove (i : Json) :
    ofJson? (.object [("op", .string "remove"), ("id", i)]) =
      (readId? i.merged).bind fun id => some (.remove id) := rfl

/-- The JSON text of a record whose document is writable stands for an equal record. -/
theorem exists_reread {r : JournalRecord}
    (h : ∀ d ∈ r.document?, d.Regular ∧ d.toValue.Writable) :
    ∃ j r', r.toJson.reread? = some j ∧ ofJson? j = some r' ∧
      Alike (fun a b => a.equal b = true) r' r := by
  cases r with
  | insert doc =>
      obtain ⟨hregular, hvalues⟩ := h doc rfl
      obtain ⟨j, d', hj, hdoc, hequal⟩ := Document.exists_reread hregular hvalues
      refine ⟨_, .insert d', reread_insert.2 ⟨j, hj, rfl⟩, ?_, .insert hequal⟩
      rw [ofJson?_insert, hdoc]
      rfl
  | replace id doc =>
      obtain ⟨hregular, hvalues⟩ := h doc rfl
      obtain ⟨i, id', hi, hid, hsame⟩ := id.exists_reread
      obtain ⟨j, d', hj, hdoc, hequal⟩ := Document.exists_reread hregular hvalues
      refine ⟨_, .replace id' d', reread_replace hi hj, ?_, .replace hsame hequal⟩
      rw [ofJson?_replace, hid, hdoc]
      rfl
  | remove id =>
      obtain ⟨i, id', hi, hid, hsame⟩ := id.exists_reread
      refine ⟨_, .remove id', reread_remove hi, ?_, .remove hsame⟩
      rw [ofJson?_remove, hid]
      rfl

/-! ## Lines -/

/-- **A record survives its line.** If the document of a record, which names its id first, is
preserved and the JSON text of the record nests no deeper than what is read, the line of the record
ends in its only line feed, and without that it decodes to an equal record. -/
theorem ofLine_toLine {r : JournalRecord} (hregular : ∀ d ∈ r.document?, d.Regular)
    (hpreserved : ∀ d ∈ r.document?, d.Preserved) (hdepth : r.toJson.depth ≤ Json.maxDepth) :
    ∃ line, r.toLine = line ++ "\n" ∧ '\n' ∉ line.toList ∧
      ∃ r', ofLine line = .ok r' ∧ Alike (fun a b => a.equal b = true) r' r := by
  obtain ⟨j, r', hread, hr, halike⟩ := exists_reread (r := r) fun d hd =>
    ⟨hregular d hd, (hpreserved d hd).writable (hregular d hd)⟩
  have hdepth' : j.depth ≤ Json.maxDepth := by
    rw [Json.depth_reread hread]
    exact hdepth
  have hfeed : '\n' ∉ r.line.toList := fun h => absurd (r.plain_line _ h) (by decide)
  exact ⟨r.line, r.toLine_eq, hfeed, r', ofLine_line_eq_ok.2 ⟨j, hread, hdepth', hr⟩, halike⟩

/-- A visit with a fee, inside a leap second, and a note that looks like a date. -/
def visit : Document :=
  .make (.generated "a1") [("name", .string "Zoë \"Z\"\n"), ("fee", .float 2.5),
    ("at", .date ⟨1483228799, 1500000000⟩),
    ("notes", .array [.null, .object [("$date", .string "soon")]])]

theorem preserved_visit : visit.Preserved where
  values := by decide +kernel
  doubles f hf := by
    have hfee : ∀ f, Value.float 2.5 = .float f → Json.Numeral.Rereads f := by
      rintro _ ⟨⟩
      decide +kernel
    have hall : visit.toValue.Everywhere
        (fun v => ∀ f, v = .float f → Json.Numeral.Rereads f) fun _ => True := by
      refine ⟨trivial, ?_, ?_, hfee, ?_, ⟨?_, ⟨trivial, ?_, trivial⟩, trivial⟩, trivial⟩ <;>
        rintro f ⟨⟩
    exact hf.everywhere hall f rfl

theorem ofLine_toLine_visit :
    visit.Regular ∧ visit.Preserved ∧
      (replace (.generated "a1") visit).toJson.depth ≤ Json.maxDepth ∧
      ∃ line, (replace (.generated "a1") visit).toLine = line ++ "\n" ∧ '\n' ∉ line.toList ∧
        ∃ r', ofLine line = .ok r' ∧
          Alike (fun a b => a.equal b = true) r' (replace (.generated "a1") visit) := by
  have hregular : visit.Regular :=
    ⟨rfl, by decide, trivial, trivial, trivial, ⟨by decide, by decide, by decide⟩,
      ⟨trivial, ⟨by decide, trivial, trivial⟩, trivial⟩, trivial⟩
  refine ⟨hregular, preserved_visit, by decide +kernel, ofLine_toLine ?_ ?_ (by decide +kernel)⟩
  · rintro _ ⟨⟩
    exact hregular
  · rintro _ ⟨⟩
    exact preserved_visit

end JournalRecord

end DocStore
