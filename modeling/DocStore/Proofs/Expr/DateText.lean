import DocStore.Proofs.Calendar.Rfc3339
import DocStore.Proofs.Number.Exact

/-!
# Dates in the standard format

Outside leap seconds the standard format shows a date as JSON does, and the text is read back as the
date cut to milliseconds. In a leap second the format shows the second before with a thousand
milliseconds and more. These have four digits, so that the text names another instant: the one at a
tenth of them.
-/

set_option autoImplicit false

namespace DocStore

namespace Rfc3339

/-- A number that does not fit its width is written in full, so a wider field does not show. -/
theorem padded_succ {width n : Nat} (hwidth : 0 < width) (h : 10 ^ width ≤ n) :
    padded width n = padded (width + 1) n := by
  have hlong : width < (Nat.toDigits 10 n).length := by
    rw [← Nat.not_le, Nat.length_toDigits_le_iff (by decide) hwidth]
    omega
  have hnarrow : width - (Nat.toDigits 10 n).length = 0 := by omega
  have hwide : width + 1 - (Nat.toDigits 10 n).length = 0 := by omega
  simp only [padded, hnarrow, hwide]

/-- The second of an instant names the instant with other nanoseconds. -/
theorem instant?_secondOfMinute {t : Instant} (h : t.inRange = true) (nanos : Nat) :
    instant? t.date t.hour t.minute t.secondOfMinute nanos 0 = some { t with nanos := nanos } := by
  have hsec := t.secondOfMinute_lt
  have hclock : t.hour < 24 ∧ t.minute < 60 ∧ t.secondOfMinute ≤ 60 :=
    ⟨t.hour_lt, t.minute_lt, by omega⟩
  have hne : t.secondOfMinute ≠ 60 := by omega
  have hsame : Instant.mk (t.date.toDays * Instant.daySeconds + (t.hour * 3600 + t.minute * 60 +
      (t.secondOfMinute : Nat)) - 0) nanos = { t with nanos := nanos } := by
    simp only [Instant.mk.injEq, and_true]
    have := t.seconds_eq
    omega
  rw [instant?, if_pos hclock, Instant.checked?_eq_some]
  simp only [hne, if_false]
  exact ⟨(congrArg Instant.inRange hsame).trans h, hsame⟩

end Rfc3339

/-! ## The standard format -/

namespace DateFormat

/-- The parts of the standard format. -/
def iso : DateFormat :=
  [.field .year, .literal "-", .field .month, .literal "-", .field .day, .literal "T",
    .field .hour, .literal ":", .field .minute, .literal ":", .field .second, .literal ".",
    .field .millisecond, .literal "Z"]

section Iso

open Rfc3339 (charsAfterYear fractionChars)

variable {t : Instant}

theorem toList_render_iso (hyear : t.HasShortYear) :
    (iso.render t).toList = (Rfc3339.yearText t.date.year).toList ++
      charsAfterYear t t.secondOfMinute (fractionChars 3 (t.nanos / 1000000)) := by
  have hpositive : ¬ t.date.year < 0 := by
    have := hyear.1
    omega
  rw [Rfc3339.yearText_of_short hyear]
  simp [render, iso, Part.render, DateField.text, DateField.yearText, hpositive, charsAfterYear,
    fractionChars]

/-- Outside leap seconds the second and the milliseconds are those of the date text. -/
theorem render_iso_of_not_leap (hyear : t.HasShortYear) (hleap : t.isLeap = false) :
    iso.render t = Rfc3339.text t := by
  have hsec : Rfc3339.clockSecond t = t.secondOfMinute := by simp [Rfc3339.clockSecond, hleap]
  have hmillis : Rfc3339.clockMillis t = t.nanos / 1000000 := by
    simp [Rfc3339.clockMillis, hleap]
  apply String.toList_injective
  rw [toList_render_iso hyear, Rfc3339.toList_text, Rfc3339.afterYear_eq, hsec, hmillis]

/-- Inside a leap second there are four digits of milliseconds, and the first is that of a tenth of
a second. -/
theorem parse?_render_iso_of_leap (h : t.Regular) (hyear : t.HasShortYear)
    (hleap : t.isLeap = true) :
    Rfc3339.parse? (iso.render t) = some { t with nanos := t.nanos / 1000000 * 100000 } := by
  have hlower : Instant.second ≤ t.nanos := by simpa [Instant.isLeap] using hleap
  have hupper := h.nanos_lt
  unfold Instant.second at hlower hupper
  have hmillis : 10 ^ 3 ≤ t.nanos / 1000000 ∧ t.nanos / 1000000 < 10 ^ 4 := by omega
  have hfrac : Rfc3339.fraction (fractionChars 3 (t.nanos / 1000000)) =
      some (t.nanos / 1000000 * 100000, ['Z']) := by
    rw [fractionChars, Rfc3339.padded_succ (by decide) hmillis.1]
    exact Rfc3339.fraction_padded (by decide) (by decide) hmillis.2
  have hsec : t.secondOfMinute < 10 ^ 2 := Nat.lt_trans t.secondOfMinute_lt (by decide)
  exact Rfc3339.parse?_of_instant? hyear (toList_render_iso hyear) hsec hfrac
    (Rfc3339.instant?_secondOfMinute h.inRange _)

/-- **What the standard format shows** is read back as the instant cut to milliseconds if it lies in
no leap second, and only then. -/
theorem parse?_render_iso (h : t.Regular) (hyear : t.HasShortYear) :
    Rfc3339.parse? (iso.render t) = some t.cut ↔ t.isLeap = false := by
  constructor
  · intro hread
    by_contra hleap
    rw [Bool.not_eq_false] at hleap
    rw [parse?_render_iso_of_leap h hyear hleap] at hread
    -- A tenth of the milliseconds is less than a second, and the instant is in a leap second.
    have hnanos : t.nanos / 1000000 * 100000 = t.nanos / 1000000 * 1000000 :=
      congrArg Instant.nanos (Option.some.inj hread)
    have hlower : Instant.second ≤ t.nanos := by simpa [Instant.isLeap] using hleap
    unfold Instant.second at hlower
    omega
  · intro hleap
    rw [render_iso_of_not_leap hyear hleap]
    exact Rfc3339.parse?_text_of_short h hyear

/-- **The standard format and JSON** show the same text outside leap seconds only. -/
theorem render_iso_eq_text (h : t.Regular) (hyear : t.HasShortYear) :
    iso.render t = Rfc3339.text t ↔ t.isLeap = false := by
  constructor
  · intro hsame
    -- In a leap second the texts are read as different instants, so they differ.
    rw [← parse?_render_iso h hyear, hsame]
    exact Rfc3339.parse?_text_of_short h hyear
  · exact render_iso_of_not_leap hyear

end Iso

end DateFormat

/-! ## Expressions -/

namespace Expr

/-- Whether an argument is left out, or given as what stands for it then. -/
def LeavesStandard (obj : Fields Json) (key standard : String) : Prop :=
  Fields.get? obj key = none ∨ Fields.get? obj key = some (.string standard)

/-- The operand of `$dateToString` for a date in the standard format. -/
structure AsksStandardText (obj : Fields Json) (date : Json) : Prop where
  date : Fields.get? obj "date" = some date
  format : LeavesStandard obj "format" DateFormat.standard
  timezone : LeavesStandard obj "timezone" "UTC"

theorem textArgument_of_leavesStandard {obj : Fields Json} {key standard : String}
    (h : LeavesStandard obj key standard) (f : ExprFault) :
    (textArgument obj key standard f : Result String) = .ok standard := by
  unfold textArgument
  rcases h with h | h <;> rw [h] <;> rfl

theorem ofJson_dateToString {obj : Fields Json} {date : Json} (h : AsksStandardText obj date)
    {e : Expr} (he : ofJson date = .ok e) :
    ofJson (.object [("$dateToString", .object obj)]) = .ok (dateToString .iso e) := by
  have hformat : (readFormat obj : Result DateFormat) = .ok .iso := by
    rw [readFormat, textArgument_of_leavesStandard h.format,
      textArgument_of_leavesStandard h.timezone]
    rfl
  -- The reader finds the argument together with the fact that it is smaller.
  obtain ⟨d, hd, hdate⟩ := Option.map_eq_some_iff.1
    ((Fields.find?_eq_get? obj "date").trans h.date)
  have hrequired : (required "$dateToString" "date" obj : Result _) = .ok d := by
    rw [required, hd]
    rfl
  have hread : (read d.1 : Result Expr) = .ok e := hdate ▸ he
  have hoperator : Segments.isOperator "$dateToString" = true := by decide
  rw [ofJson, read, if_pos hoperator, readOperator, readDateToString, hformat]
  refine bind_eq_ok.2 ⟨_, rfl, bind_eq_ok.2 ⟨d, hrequired, ?_⟩⟩
  exact bind_eq_ok.2 ⟨e, hread, rfl⟩

theorem eval_dateToString {e : Expr} {doc : Value} {t : Instant} (h : e.eval doc = .ok (.date t))
    (format : DateFormat) : (dateToString format e).eval doc = .ok (.string (format.render t)) := by
  obtain ⟨v, hv, hvalue⟩ := bind_eq_ok.1 h
  have hdate : v.getD .null = .date t := Except.ok.inj hvalue
  have htext : Operators.dateText format (v.getD .null) = .ok (.string (format.render t)) := by
    rw [hdate]
    rfl
  refine (eval_of_eval?_eq ?_).trans htext
  rw [eval?, hv]
  rfl

/-- **The text of a date without a format.** `$dateToString` with the standard format gives a text
for every date. It is the text in the JSON of the date if this lies in no leap second, and only
then; just so it is read back as the date cut to milliseconds. -/
theorem standardText_iff {t : Instant} (h : t.Regular) (hyear : t.HasShortYear)
    {obj : Fields Json} {date : Json} (hobj : AsksStandardText obj date) {e : Expr}
    (he : ofJson date = .ok e) {doc : Value} (hdoc : e.eval doc = .ok (.date t)) :
    ∃ shown text, ofJson (.object [("$dateToString", .object obj)]) = .ok shown ∧
      shown.eval doc = .ok (.string text) ∧
      ((Value.date t).toJson = .object [(Value.dateField, .string text)] ↔ t.isLeap = false) ∧
      (Rfc3339.parse? text = some t.cut ↔ t.isLeap = false) := by
  refine ⟨dateToString .iso e, DateFormat.iso.render t, ofJson_dateToString hobj he,
    eval_dateToString hdoc .iso, ?_, DateFormat.parse?_render_iso h hyear⟩
  rw [← DateFormat.render_iso_eq_text h hyear]
  simp [Value.toJson, eq_comm]

/-- A document with a date in the field `at`. -/
def dated (t : Instant) : Value := .object [("at", .date t)]

theorem ofJson_at : ofJson (.string "$at") = .ok (field "at") := by
  rw [ofJson, read]
  rfl

theorem eval_at (t : Instant) : (field "at").eval (dated t) = .ok (.date t) := rfl

theorem asksStandardText_at : AsksStandardText [("date", .string "$at")] (.string "$at") :=
  ⟨rfl, .inl rfl, .inl rfl⟩

theorem standardText_iff_march :
    ∃ shown text, ofJson (.object [("$dateToString", .object [("date", .string "$at")])]) =
        .ok shown ∧ shown.eval (dated ⟨1740823200, 123000000⟩) = .ok (.string text) ∧
      (Value.date ⟨1740823200, 123000000⟩).toJson = .object [(Value.dateField, .string text)] ∧
      Rfc3339.parse? text = some ⟨1740823200, 123000000⟩ := by
  have hregular : Instant.Regular ⟨1740823200, 123000000⟩ := ⟨by decide, by decide, by decide⟩
  obtain ⟨shown, text, hread, hshown, hjson, hback⟩ :=
    standardText_iff hregular (by decide) asksStandardText_at ofJson_at (eval_at _)
  exact ⟨shown, text, hread, hshown, hjson.2 (by decide), hback.2 (by decide)⟩

/-- The half of the leap second at the end of 2016. -/
def leapHalf : Instant := ⟨1483228799, 1500000000⟩

/-- In a leap second the text is another than that in JSON, and names another instant. -/
theorem not_standardText_leapHalf :
    ∃ shown, ofJson (.object [("$dateToString", .object [("date", .string "$at")])]) = .ok shown ∧
      shown.eval (dated leapHalf) = .ok (.string "2016-12-31T23:59:59.1500Z") ∧
      (Value.date leapHalf).toJson =
        .object [(Value.dateField, .string "2016-12-31T23:59:60.500Z")] ∧
      Rfc3339.parse? "2016-12-31T23:59:59.1500Z" = some ⟨1483228799, 150000000⟩ := by
  have htext : Rfc3339.text leapHalf = "2016-12-31T23:59:60.500Z" := by decide
  refine ⟨_, ofJson_dateToString asksStandardText_at ofJson_at,
    eval_dateToString (eval_at leapHalf) .iso, ?_, by decide⟩
  rw [Value.toJson, htext]

end Expr

end DocStore
