import Mathlib.Data.List.Induction
import DocStore.Calendar.Rfc3339
import DocStore.Proofs.Calendar.Civil
import DocStore.Proofs.Json.Numeral

/-!
# Date texts read back

The text of an instant is read back as the instant cut to milliseconds if its year has four digits,
and not at all otherwise: `parse?_text`. The instants that are read from texts or made from counts
of milliseconds are `Regular`.
-/

set_option autoImplicit false

namespace DocStore

namespace Instant

/-- An instant on a day in range, whose leap second, if it is one, ends a minute. -/
structure Regular (t : Instant) : Prop where
  inRange : t.inRange = true
  nanos_lt : t.nanos < 2 * second
  leap : t.isLeap = true → t.secondOfMinute = 59

/-- The instant cut to milliseconds. -/
def cut (t : Instant) : Instant := { t with nanos := t.nanos / 1000000 * 1000000 }

/-- Whether the year has four digits. -/
def HasShortYear (t : Instant) : Prop := 0 ≤ t.date.year ∧ t.date.year ≤ 9999

instance (t : Instant) : Decidable t.HasShortYear := inferInstanceAs (Decidable (_ ∧ _))

theorem checked?_eq_some {t u : Instant} : t.checked? = some u ↔ t.inRange = true ∧ t = u := by
  simp [checked?]

/-- The clock and the day of an instant give its seconds. -/
theorem seconds_eq (t : Instant) : t.date.toDays * daySeconds +
    (t.hour * 3600 + t.minute * 60 + t.secondOfMinute : Nat) = t.seconds := by
  rw [date, CivilDate.toDays_ofDays]
  unfold hour minute secondOfMinute secondOfDay dayNumber daySeconds
  omega

theorem hour_lt (t : Instant) : t.hour < 24 := by
  unfold hour secondOfDay daySeconds
  omega

theorem minute_lt (t : Instant) : t.minute < 60 := Nat.mod_lt _ (by decide)

theorem secondOfMinute_lt (t : Instant) : t.secondOfMinute < 60 := Nat.mod_lt _ (by decide)

end Instant

namespace Rfc3339

open Instant (second)

/-! ## Fields -/

theorem toList_padded {width n : Nat} (hwidth : 0 < width) (h : n < 10 ^ width) :
    ∃ cs, (padded width n).toList = cs ∧ cs.length = width ∧ (∀ c ∈ cs, c.isDigit = true) ∧
      cs.foldl (fun n c => n * 10 + (c.toNat - 48)) 0 = n := by
  have hlength : (Nat.toDigits 10 n).length ≤ width :=
    (Nat.length_toDigits_le_iff (by decide) hwidth).2 h
  refine ⟨_, String.toList_ofList, ?_, fun _ => isDigit_of_mem_padded, ?_⟩
  · rw [List.length_append, List.length_replicate]
    omega
  · refine (Json.Numeral.foldl_digitValue _ 0).trans ?_
    rw [Nat.ofDigitChars_append, Nat.ofDigitChars_replicate_zero, Nat.mul_zero,
      Nat.ofDigitChars_ten_toDigits]

/-- A number that was written with a width is read with it. -/
theorem number_padded {width n : Nat} (hwidth : 0 < width) (h : n < 10 ^ width)
    (rest : List Char) : number width ((padded width n).toList ++ rest) = some (n, rest) := by
  obtain ⟨cs, hcs, hlength, hdigits, hvalue⟩ := toList_padded hwidth h
  have htake : (cs ++ rest).take width = cs := by rw [← hlength, List.take_left]
  have hdrop : (cs ++ rest).drop width = rest := by rw [← hlength, List.drop_left]
  rw [hcs, number, htake, hdrop, if_pos ⟨hlength, List.all_eq_true.2 hdigits⟩, hvalue]

theorem oneOf_cons {allowed : List Char} {c : Char} (h : c ∈ allowed) (cs : List Char) :
    oneOf allowed (c :: cs) = some (c, cs) := if_pos h

/-- The digits of a fraction count from the decimal point. -/
theorem fraction_padded {width n : Nat} (hwidth : 0 < width) (hnine : width ≤ 9)
    (h : n < 10 ^ width) : fraction ('.' :: ((padded width n).toList ++ ['Z'])) =
      some (n * 10 ^ (9 - width), ['Z']) := by
  obtain ⟨cs, hcs, hlength, hdigits, hvalue⟩ := toList_padded hwidth h
  have htake : (cs ++ ['Z']).takeWhile Char.isDigit = cs := by
    rw [List.takeWhile_append_of_pos hdigits]
    simp
  have hdrop : (cs ++ ['Z']).dropWhile Char.isDigit = ['Z'] :=
    List.dropWhile_append_of_pos hdigits
  have hne : cs ≠ [] := by
    rintro rfl
    rw [List.length_nil] at hlength
    omega
  have hfront : cs.take 9 = cs := List.take_of_length_le (by omega)
  rw [hcs, fraction, htake, hdrop]
  simp only [hne, if_false, hfront, hlength, hvalue]
  rfl

/-! ## Texts -/

/-- The clock of an instant in the text, whose leap second is second 60. -/
def clockSecond (t : Instant) : Nat :=
  if t.isLeap then t.secondOfMinute + 1 else t.secondOfMinute

/-- The milliseconds in the text. -/
def clockMillis (t : Instant) : Nat :=
  (if t.isLeap then t.nanos - second else t.nanos) / 1000000

theorem clockMillis_lt {t : Instant} (h : t.Regular) : clockMillis t < 1000 := by
  have hlt := h.nanos_lt
  unfold clockMillis Instant.isLeap second at *
  split
  · omega
  · rename_i hle
    have : ¬ 1000000000 ≤ t.nanos := by simpa using hle
    omega

/-- The characters of a date text after the year. -/
def afterYear (t : Instant) : List Char :=
  '-' :: ((padded 2 t.date.month).toList ++ '-' :: ((padded 2 t.date.day).toList ++ 'T' ::
    ((padded 2 t.hour).toList ++ ':' :: ((padded 2 t.minute).toList ++ ':' ::
      ((padded 2 (clockSecond t)).toList ++ '.' ::
        ((padded 3 (clockMillis t)).toList ++ ['Z']))))))

/-- The same for any second and fraction. -/
def charsAfterYear (t : Instant) (sec : Nat) (frac : List Char) : List Char :=
  '-' :: ((padded 2 t.date.month).toList ++ '-' :: ((padded 2 t.date.day).toList ++ 'T' ::
    ((padded 2 t.hour).toList ++ ':' :: ((padded 2 t.minute).toList ++ ':' ::
      ((padded 2 sec).toList ++ frac)))))

/-- A point, a number of so many digits and the letter of UTC. -/
def fractionChars (width n : Nat) : List Char := '.' :: ((padded width n).toList ++ ['Z'])

theorem afterYear_eq (t : Instant) :
    afterYear t = charsAfterYear t (clockSecond t) (fractionChars 3 (clockMillis t)) := rfl

theorem toList_text (t : Instant) :
    (text t).toList = (yearText t.date.year).toList ++ afterYear t := by
  simp [text, afterYear, clockSecond, clockMillis]

theorem yearText_of_short {t : Instant} (hyear : t.HasShortYear) :
    yearText t.date.year = padded 4 t.date.year.toNat := if_pos hyear

/-- **A text with the date and the clock of an instant** is read as what its fields name. -/
theorem parse?_of_instant? {t u : Instant} (hyear : t.HasShortYear) {s : String}
    {sec nanos : Nat} {frac : List Char}
    (hs : s.toList = (yearText t.date.year).toList ++ charsAfterYear t sec frac)
    (hsec : sec < 10 ^ 2) (hfrac : fraction frac = some (nanos, ['Z']))
    (hu : instant? t.date t.hour t.minute sec nanos 0 = some u) : parse? s = some u := by
  have hy4 : t.date.year.toNat < 10 ^ 4 := by
    have := hyear.2
    omega
  obtain ⟨hmonth, hday⟩ : t.date.month < 10 ^ 2 ∧ t.date.day < 10 ^ 2 :=
    CivilDate.month_day_lt t.dayNumber
  have hhour : t.hour < 10 ^ 2 := Nat.lt_trans t.hour_lt (by decide)
  have hminute : t.minute < 10 ^ 2 := Nat.lt_trans t.minute_lt (by decide)
  have hdate : CivilDate.ofNumbers? t.date.year.toNat t.date.month t.date.day = some t.date := by
    rw [Int.toNat_of_nonneg hyear.1]
    exact CivilDate.ofNumbers?_ofDays t.dayNumber
  rw [parse?, hs, yearText_of_short hyear, charsAfterYear]
  -- One field or mark after the other, from the year to the letter of the offset.
  refine Option.bind_eq_some_iff.2 ⟨_, number_padded (by decide) hy4 _, ?_⟩
  refine Option.bind_eq_some_iff.2 ⟨_, oneOf_cons (by decide) _, ?_⟩
  refine Option.bind_eq_some_iff.2 ⟨_, number_padded (by decide) hmonth _, ?_⟩
  refine Option.bind_eq_some_iff.2 ⟨_, oneOf_cons (by decide) _, ?_⟩
  refine Option.bind_eq_some_iff.2 ⟨_, number_padded (by decide) hday _, ?_⟩
  refine Option.bind_eq_some_iff.2 ⟨_, oneOf_cons (by decide) _, ?_⟩
  refine Option.bind_eq_some_iff.2 ⟨_, number_padded (by decide) hhour _, ?_⟩
  refine Option.bind_eq_some_iff.2 ⟨_, oneOf_cons (by decide) _, ?_⟩
  refine Option.bind_eq_some_iff.2 ⟨_, number_padded (by decide) hminute _, ?_⟩
  refine Option.bind_eq_some_iff.2 ⟨_, oneOf_cons (by decide) _, ?_⟩
  refine Option.bind_eq_some_iff.2 ⟨_, number_padded (by decide) hsec _, ?_⟩
  refine Option.bind_eq_some_iff.2 ⟨_, hfrac, ?_⟩
  refine Option.bind_eq_some_iff.2 ⟨(0, []), rfl, ?_⟩
  refine Option.bind_eq_some_iff.2 ⟨(), rfl, ?_⟩
  refine Option.bind_eq_some_iff.2 ⟨_, hdate, ?_⟩
  exact hu

/-- The fields of the text of an instant name the instant, cut to milliseconds. -/
theorem instant?_clock {t : Instant} (h : t.Regular) :
    instant? t.date t.hour t.minute (clockSecond t) (clockMillis t * 1000000) 0 = some t.cut := by
  have hseconds := t.seconds_eq
  have hlt := t.secondOfMinute_lt
  have hclock : t.hour < 24 ∧ t.minute < 60 ∧ clockSecond t ≤ 60 :=
    ⟨t.hour_lt, t.minute_lt, by unfold clockSecond; split <;> omega⟩
  have hcut : Instant.mk (t.date.toDays * Instant.daySeconds + (t.hour * 3600 + t.minute * 60 +
      (if clockSecond t = 60 then 59 else clockSecond t : Nat)) - 0)
      (if clockSecond t = 60 then second + clockMillis t * 1000000
        else clockMillis t * 1000000) = t.cut := by
    unfold clockSecond clockMillis Instant.cut
    cases hleap : t.isLeap with
    | true =>
        -- Second 60 is second 59 with a second more of nanoseconds.
        have hlast := h.leap hleap
        have hnanos : second ≤ t.nanos := by simpa [Instant.isLeap] using hleap
        simp only [if_true, hlast, Instant.mk.injEq]
        unfold second at *
        omega
    | false =>
        have hne : t.secondOfMinute ≠ 60 := by omega
        simp only [Bool.false_eq_true, if_false, hne, Instant.mk.injEq, and_true]
        omega
  rw [instant?, if_pos hclock, Instant.checked?_eq_some]
  exact ⟨(congrArg Instant.inRange hcut).trans h.inRange, hcut⟩

theorem clockSecond_lt (t : Instant) : clockSecond t < 10 ^ 2 := by
  have := t.secondOfMinute_lt
  unfold clockSecond
  split <;> omega

theorem parse?_text_of_short {t : Instant} (h : t.Regular) (hyear : t.HasShortYear) :
    parse? (text t) = some t.cut := by
  have hfrac : fraction (fractionChars 3 (clockMillis t)) = some (clockMillis t * 1000000, ['Z']) :=
    fraction_padded (by decide) (by decide) (clockMillis_lt h)
  exact parse?_of_instant? hyear (toList_text t) (clockSecond_lt t) hfrac (instant?_clock h)

theorem number_of_not_digit {width : Nat} (hwidth : 0 < width) {c : Char}
    (hc : c.isDigit = false) (cs : List Char) : number width (c :: cs) = none := by
  obtain ⟨w, rfl⟩ := Nat.exists_eq_succ_of_ne_zero (Nat.ne_of_gt hwidth)
  exact if_neg fun h => by simp [hc] at h

/-- **A date text is read back** as the instant cut to milliseconds, if the year has four digits. -/
theorem parse?_text {t : Instant} (h : t.Regular) :
    parse? (text t) = if t.HasShortYear then some t.cut else none := by
  split
  · rename_i hyear
    exact parse?_text_of_short h hyear
  · rename_i hyear
    -- The year starts with a sign.
    have hsign : ∃ c cs, (yearText t.date.year).toList = c :: cs ∧ c.isDigit = false := by
      have hrange : ¬ (0 ≤ t.date.year ∧ t.date.year ≤ 9999) := hyear
      rw [yearText, if_neg hrange]
      split
      · exact ⟨'-', (padded 4 t.date.year.natAbs).toList, by simp, by decide⟩
      · exact ⟨'+', (padded 4 t.date.year.natAbs).toList, by simp, by decide⟩
    obtain ⟨c, cs, hcs, hc⟩ := hsign
    rw [parse?, toList_text, hcs, List.cons_append, number_of_not_digit (by decide) hc]
    rfl

/-- **The instants that are read back from their texts** are those of four-digit years and whole
milliseconds. -/
theorem parse?_text_eq_self {t : Instant} (h : t.Regular) :
    parse? (text t) = some t ↔ t.HasShortYear ∧ 1000000 ∣ t.nanos := by
  have hcut : t.cut = t ↔ 1000000 ∣ t.nanos := by
    rw [Instant.cut, Nat.dvd_iff_div_mul_eq]
    constructor
    · exact fun heq => congrArg Instant.nanos heq
    · intro heq
      rw [heq]
  rw [parse?_text h]
  split
  · simp [*]
  · simp [*]

/-! ## Instants that are read -/

theorem ofDigitChars_lt {cs : List Char} (h : ∀ c ∈ cs, c.isDigit = true) :
    Nat.ofDigitChars 10 cs 0 < 10 ^ cs.length := by
  induction cs using List.reverseRecOn with
  | nil => decide
  | append_singleton cs c ih =>
      have hcs := ih fun d hd => h d (List.mem_append_left _ hd)
      have hc : c.toNat - 48 < 10 := by
        have hle : c.toNat ≤ 57 := (Char.isDigit_iff_toNat.1 (h c (by simp))).2
        omega
      have hlast : Nat.ofDigitChars 10 (cs ++ [c]) 0 =
          10 * Nat.ofDigitChars 10 cs 0 + (c.toNat - 48) := by
        rw [Nat.ofDigitChars_append, Nat.ofDigitChars_cons, Nat.ofDigitChars_nil]
        rfl
      rw [hlast, List.length_append, List.length_singleton, Nat.pow_succ]
      omega

theorem fraction_lt {cs rest : List Char} {n : Nat} (h : fraction cs = some (n, rest)) :
    n < second := by
  unfold fraction at h
  split at h
  · rename_i cs
    dsimp only at h
    split at h
    · cases h
    · generalize hfront : (cs.takeWhile Char.isDigit).take 9 = front at h
      have hdigits : ∀ c ∈ front, c.isDigit = true := fun c hc =>
        List.mem_takeWhile_imp (List.mem_of_mem_take (hfront ▸ hc))
      have hlength : front.length ≤ 9 := by
        rw [← hfront]
        exact List.length_take_le _ _
      have hlt := ofDigitChars_lt hdigits
      rw [← Json.Numeral.foldl_digitValue] at hlt
      cases h
      -- As many digits as are missing are added as zeros.
      calc
        _ < 10 ^ front.length * 10 ^ (9 - front.length) :=
          Nat.mul_lt_mul_of_pos_right hlt (Nat.pow_pos (by decide))
        _ = second := by
          rw [← Nat.pow_add, Nat.add_sub_cancel' hlength]
          rfl
  · cases h
    decide

theorem offset_mod {cs rest : List Char} {o : Int} (h : offset cs = some (o, rest)) :
    o % 60 = 0 := by
  unfold offset at h
  split at h
  · cases h
    rfl
  · cases h
    rfl
  · obtain ⟨⟨sign, _⟩, -, h⟩ := Option.bind_eq_some_iff.1 h
    obtain ⟨⟨hours, _⟩, -, h⟩ := Option.bind_eq_some_iff.1 h
    obtain ⟨⟨_, _⟩, -, h⟩ := Option.bind_eq_some_iff.1 h
    obtain ⟨⟨minutes, _⟩, -, h⟩ := Option.bind_eq_some_iff.1 h
    dsimp only at h
    split at h
    · cases h
      split <;> omega
    · cases h

/-- What fields name is a regular instant, as no offset moves the end of a minute. -/
theorem regular_instant? {date : CivilDate} {hour minute sec nanos : Nat} {o : Int} {t : Instant}
    (hnanos : nanos < second) (ho : o % 60 = 0)
    (h : instant? date hour minute sec nanos o = some t) : t.Regular := by
  obtain ⟨⟨-, -, hsec⟩, h⟩ := Option.ite_none_right_eq_some.1 h
  obtain ⟨hrange, rfl⟩ := Instant.checked?_eq_some.1 h
  refine ⟨hrange, ?_, ?_⟩
  · dsimp only
    split <;> omega
  · intro hleap
    have hlast : sec = 60 := by
      by_contra hne
      simp [Instant.isLeap, hne] at hleap
      omega
    subst hlast
    unfold Instant.secondOfMinute Instant.secondOfDay Instant.daySeconds
    simp only [if_true]
    omega

/-- **A date text names a regular instant.** -/
theorem regular_of_parse? {text : String} {t : Instant} (h : parse? text = some t) :
    t.Regular := by
  obtain ⟨⟨year, _⟩, -, h⟩ := Option.bind_eq_some_iff.1 h
  obtain ⟨⟨_, _⟩, -, h⟩ := Option.bind_eq_some_iff.1 h
  obtain ⟨⟨month, _⟩, -, h⟩ := Option.bind_eq_some_iff.1 h
  obtain ⟨⟨_, _⟩, -, h⟩ := Option.bind_eq_some_iff.1 h
  obtain ⟨⟨day, _⟩, -, h⟩ := Option.bind_eq_some_iff.1 h
  obtain ⟨⟨_, _⟩, -, h⟩ := Option.bind_eq_some_iff.1 h
  obtain ⟨⟨hour, _⟩, -, h⟩ := Option.bind_eq_some_iff.1 h
  obtain ⟨⟨_, _⟩, -, h⟩ := Option.bind_eq_some_iff.1 h
  obtain ⟨⟨minute, _⟩, -, h⟩ := Option.bind_eq_some_iff.1 h
  obtain ⟨⟨_, _⟩, -, h⟩ := Option.bind_eq_some_iff.1 h
  obtain ⟨⟨sec, _⟩, -, h⟩ := Option.bind_eq_some_iff.1 h
  obtain ⟨⟨nanos, _⟩, hnanos, h⟩ := Option.bind_eq_some_iff.1 h
  obtain ⟨⟨o, _⟩, ho, h⟩ := Option.bind_eq_some_iff.1 h
  obtain ⟨_, -, h⟩ := Option.bind_eq_some_iff.1 h
  obtain ⟨date, -, h⟩ := Option.bind_eq_some_iff.1 h
  exact regular_instant? (fraction_lt hnanos) (offset_mod ho) h

end Rfc3339

theorem Instant.regular_ofMillis? {ms : Int} {t : Instant} (h : ofMillis? ms = some t) :
    t.Regular := by
  obtain ⟨hrange, rfl⟩ := checked?_eq_some.1 h
  have hnanos : (ms % 1000).toNat * 1000000 < second := by
    unfold second
    omega
  refine ⟨hrange, ?_, fun hleap => ?_⟩
  · dsimp only
    omega
  · simp [isLeap] at hleap
    omega

end DocStore
