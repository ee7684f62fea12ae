import Mathlib.Data.List.Chain
import DocStore.Expr.DateFormat
import DocStore.Proofs.Calendar.Rfc3339
import DocStore.Proofs.Except

/-!
# Formats of dates as texts

A format is written as its literals with each percent sign doubled and its fields as letters behind
a percent sign. Reading finds exactly the formats that are `Merged`, each in the text that is
written for it, and fails at the first percent sign that is `Stray`. What such a format shows of an
instant are its literals and the printed fields, one after the other: `DateFormat.readsBack`.
-/

set_option autoImplicit false

namespace DocStore

/-! ## Letters -/

namespace DateField

theorem eq_letter_of_ofLetter? {c : Char} {f : DateField} (h : ofLetter? c = some f) :
    c = f.letter := by
  unfold ofLetter? at h
  split at h <;> cases h <;> rfl

theorem letter_ne_sign (f : DateField) : f.letter ≠ '%' := by
  cases f <;> decide

end DateField

namespace DateFormat

/-- The characters that may follow a percent sign: the letters of the fields, and a second sign. -/
def MayFollow (c : Char) : Prop := c ∈ ['Y', 'm', 'd', 'H', 'M', 'S', 'L', 'j', '%']

instance (c : Char) : Decidable (MayFollow c) := inferInstanceAs (Decidable (_ ∈ _))

theorem mayFollow_iff {c : Char} : MayFollow c ↔ c = '%' ∨ ∃ f : DateField, c = f.letter := by
  constructor
  · intro h
    simp only [MayFollow, List.mem_cons, List.not_mem_nil, or_false] at h
    rcases h with rfl | rfl | rfl | rfl | rfl | rfl | rfl | rfl | rfl
    · exact .inr ⟨.year, rfl⟩
    · exact .inr ⟨.month, rfl⟩
    · exact .inr ⟨.day, rfl⟩
    · exact .inr ⟨.hour, rfl⟩
    · exact .inr ⟨.minute, rfl⟩
    · exact .inr ⟨.second, rfl⟩
    · exact .inr ⟨.millisecond, rfl⟩
    · exact .inr ⟨.dayOfYear, rfl⟩
    · exact .inl rfl
  · rintro (rfl | ⟨f, rfl⟩)
    · decide
    · cases f <;> decide

/-! ## From left to right -/

/-- A percent sign at the start of a text that the end follows, or a character that may not, with
the error for it. -/
inductive Stray : List Char → ExprFault → Prop where
  | ending : Stray ['%'] .formatEnd
  | token {c : Char} (hc : ¬ MayFollow c) (rest : List Char) :
      Stray ('%' :: c :: rest) (.formatToken c)

/-- Reading from left to right, each percent sign together with the character behind it, comes to a
rest of the text. -/
inductive ComesTo : List Char → List Char → Prop where
  | refl (cs : List Char) : ComesTo cs cs
  | plain {c : Char} {cs rest : List Char} (hc : c ≠ '%') (h : ComesTo cs rest) :
      ComesTo (c :: cs) rest
  | pair (c : Char) {cs rest : List Char} (h : ComesTo cs rest) : ComesTo ('%' :: c :: cs) rest

/-- The characters that are read at once, and what they put in front of the format behind them. -/
inductive Step : List Char → (DateFormat → DateFormat) → Prop where
  | plain {c : Char} (hc : c ≠ '%') : Step [c] (pushLiteral c)
  | sign : Step ['%', '%'] (pushLiteral '%')
  | field (f : DateField) : Step ['%', f.letter] (.field f :: ·)

variable {cs front rest : List Char} {add : DateFormat → DateFormat} {format : DateFormat}

theorem ofChars_append (h : Step front add) (cs : List Char) :
    ofChars (front ++ cs) = (ofChars cs).map add := by
  cases h with
  | plain hc => simp [ofChars, hc]
  | sign => rfl
  | field f => simp [ofChars, DateField.letter_ne_sign, DateField.ofLetter?_letter]

theorem ofChars_stray {f : ExprFault} (h : Stray rest f) : ofChars rest = .error f := by
  cases h with
  | ending => rfl
  | @token c hc rest =>
      have hletter : DateField.ofLetter? c = none := Option.eq_none_iff_forall_ne_some.2 fun f hf =>
        hc (mayFollow_iff.2 (.inr ⟨f, DateField.eq_letter_of_ofLetter? hf⟩))
      have hsign : c ≠ '%' := fun heq => hc (mayFollow_iff.2 (.inl heq))
      rw [ofChars, hletter]
      exact hsign

theorem ComesTo.append (h : Step front add) (hrest : ComesTo cs rest) :
    ComesTo (front ++ cs) rest := by
  cases h with
  | plain hc => exact .plain hc hrest
  | sign => exact .pair '%' hrest
  | field f => exact .pair f.letter hrest

/-- A pair whose second character may follow is read at once. -/
theorem exists_step_of_mayFollow {c : Char} (hc : MayFollow c) : ∃ add, Step ['%', c] add := by
  rcases mayFollow_iff.1 hc with rfl | ⟨f, rfl⟩
  · exact ⟨_, .sign⟩
  · exact ⟨_, .field f⟩

/-- **Texts from left to right.** A text is empty, has a stray sign in front, or characters that are
read at once. -/
@[elab_as_elim]
theorem textInduction {motive : List Char → Prop} (nil : motive [])
    (stray : ∀ cs f, Stray cs f → motive cs)
    (step : ∀ front add cs, Step front add → motive cs → motive (front ++ cs)) :
    ∀ cs, motive cs
  | [] => nil
  | c :: cs => by
      by_cases hc : c = '%'
      · subst hc
        -- A sign is never read alone: the end or the next character decides.
        match cs with
        | [] => exact stray _ _ .ending
        | d :: rest =>
            by_cases hd : MayFollow d
            · obtain ⟨add, hadd⟩ := exists_step_of_mayFollow hd
              exact step _ _ _ hadd (textInduction nil stray step rest)
            · exact stray _ _ (.token hd rest)
      · exact step _ _ _ (.plain hc) (textInduction nil stray step cs)

/-! ## Errors -/

theorem ofChars_append_eq_error {f : ExprFault} (h : Step front add) :
    ofChars (front ++ cs) = .error f ↔ ofChars cs = .error f := by
  rw [ofChars_append h]
  cases ofChars cs <;> simp [Except.map]

/-- A format may stand in front of what is wrong. -/
theorem ofChars_append_of_ok {before : List Char} {f : ExprFault}
    (hbefore : ofChars before = .ok format) (h : ofChars rest = .error f) :
    ofChars (before ++ rest) = .error f := by
  induction before using textInduction generalizing format with
  | nil => exact h
  | stray cs g hstray => cases (ofChars_stray hstray).symm.trans hbefore
  | step front add cs hstep ih =>
      rw [ofChars_append hstep] at hbefore
      obtain ⟨behind, hbehind, -⟩ := map_eq_ok.1 hbefore
      rw [List.append_assoc, ofChars_append_eq_error hstep]
      exact ih hbehind

/-- **The error is that of the first stray sign**, before which the text is a format. -/
theorem ofChars_eq_error_iff {f : ExprFault} : ofChars cs = .error f ↔
    ∃ before rest format, cs = before ++ rest ∧ ofChars before = .ok format ∧ Stray rest f := by
  constructor
  · intro h
    induction cs using textInduction with
    | nil => cases h
    | stray cs g hstray =>
        cases (ofChars_stray hstray).symm.trans h
        exact ⟨[], cs, [], rfl, rfl, hstray⟩
    | step front add cs hstep ih =>
        obtain ⟨before, rest, format, rfl, hbefore, hstray⟩ :=
          ih ((ofChars_append_eq_error hstep).1 h)
        refine ⟨front ++ before, rest, add format, by rw [List.append_assoc], ?_, hstray⟩
        rw [ofChars_append hstep, hbefore]
        rfl
  · rintro ⟨before, rest, format, rfl, hbefore, hstray⟩
    exact ofChars_append_of_ok hbefore (ofChars_stray hstray)

/-- **Reading fails at stray signs only**, wherever it comes to one. -/
theorem exists_ofChars_eq_error_iff : (∃ f, ofChars cs = .error f) ↔
    ∃ rest f, ComesTo cs rest ∧ Stray rest f := by
  constructor
  · rintro ⟨f, h⟩
    induction cs using textInduction with
    | nil => cases h
    | stray cs g hstray => exact ⟨cs, g, .refl cs, hstray⟩
    | step front add cs hstep ih =>
        obtain ⟨rest, g, hrest, hstray⟩ := ih ((ofChars_append_eq_error hstep).1 h)
        exact ⟨rest, g, hrest.append hstep, hstray⟩
  · rintro ⟨rest, f, hrest, hstray⟩
    induction hrest with
    | refl cs => exact ⟨f, ofChars_stray hstray⟩
    | plain hc _ ih =>
        obtain ⟨g, hg⟩ := ih hstray
        exact ⟨g, (ofChars_append_eq_error (.plain hc)).2 hg⟩
    | pair c _ ih =>
        -- The sign of the pair may be stray itself, and comes before the one that is given.
        by_cases hc : MayFollow c
        · obtain ⟨g, hg⟩ := ih hstray
          obtain ⟨add, hadd⟩ := exists_step_of_mayFollow hc
          exact ⟨g, (ofChars_append_eq_error hadd).2 hg⟩
        · exact ⟨_, ofChars_stray (.token hc _)⟩

/-! ## Writing -/

/-- A character of a literal as it is written. -/
def doubled (c : Char) : List Char := if c = '%' then ['%', '%'] else [c]

/-- The characters that are written for a part. -/
def Part.written : Part → List Char
  | .literal text => text.toList.flatMap doubled
  | .field f => ['%', f.letter]

/-- The text that is written for a format. -/
def written (format : DateFormat) : String := String.ofList (format.flatMap Part.written)

/-- Whether a part is a literal. -/
def Part.isLiteral : Part → Bool
  | .literal _ => true
  | .field _ => false

/-- No literal is empty, and no two literals stand side by side. -/
structure Merged (format : DateFormat) : Prop where
  nonempty : Part.literal "" ∉ format
  apart : format.IsChain fun p q => ¬ (p.isLiteral = true ∧ q.isLiteral = true)

theorem merged_nil : Merged [] := ⟨List.not_mem_nil, .nil⟩

theorem merged_field_cons {f : DateField} : Merged (.field f :: format) ↔ Merged format := by
  constructor
  · intro h
    exact ⟨fun hmem => h.nonempty (List.mem_cons_of_mem _ hmem), h.apart.tail⟩
  · intro h
    refine ⟨fun hmem => ?_, h.apart.cons fun q _ hq => nomatch hq.1⟩
    exact h.nonempty ((List.mem_cons.1 hmem).resolve_left nofun)

theorem merged_literal_cons {text : String} : Merged (.literal text :: format) ↔
    text ≠ "" ∧ (∀ t, format.head? ≠ some (.literal t)) ∧ Merged format := by
  constructor
  · intro h
    refine ⟨?_, fun t ht => ?_, fun hmem => h.nonempty (List.mem_cons_of_mem _ hmem), h.apart.tail⟩
    · rintro rfl
      exact h.nonempty List.mem_cons_self
    · obtain ⟨rest, rfl⟩ := List.head?_eq_some_iff.1 ht
      exact (List.isChain_cons_cons.1 h.apart).1 ⟨rfl, rfl⟩
  · rintro ⟨htext, hhead, h⟩
    refine ⟨fun hmem => ?_, h.apart.cons fun q hq hboth => ?_⟩
    · rcases List.mem_cons.1 hmem with heq | hmem
      · cases heq
        exact htext rfl
      · exact h.nonempty hmem
    · cases q with
      | literal t => exact hhead t hq
      | field f => cases hboth.2

theorem Merged.pushLiteral (h : Merged format) (c : Char) : Merged (pushLiteral c format) := by
  cases format with
  | nil => exact merged_literal_cons.2 ⟨by simp, nofun, merged_nil⟩
  | cons part rest =>
      cases part with
      | literal text =>
          exact merged_literal_cons.2 ⟨by simp, (merged_literal_cons.1 h).2⟩
      | field f => exact merged_literal_cons.2 ⟨by simp, nofun, h⟩

/-- What is read keeps the literals apart. -/
theorem Step.merged (hstep : Step front add) (h : Merged format) : Merged (add format) := by
  cases hstep with
  | plain hc => exact h.pushLiteral _
  | sign => exact h.pushLiteral '%'
  | field f => exact merged_field_cons.2 h

theorem written_pushLiteral (c : Char) (format : DateFormat) :
    (pushLiteral c format).flatMap Part.written = doubled c ++ format.flatMap Part.written := by
  match format with
  | [] => simp [pushLiteral, Part.written]
  | .literal text :: rest => simp [pushLiteral, Part.written]
  | .field f :: rest => simp [pushLiteral, Part.written]

/-- **What is read at once is what is written** for it. -/
theorem Step.written_eq (h : Step front add) (format : DateFormat) :
    (add format).flatMap Part.written = front ++ format.flatMap Part.written := by
  cases h with
  | plain hc => rw [written_pushLiteral, doubled, if_neg hc]
  | sign => exact written_pushLiteral '%' format
  | field f => rfl

theorem step_doubled (c : Char) : Step (doubled c) (DateFormat.pushLiteral c) := by
  unfold doubled
  split
  · rename_i hc
    exact hc ▸ .sign
  · rename_i hc
    exact .plain hc

/-- A literal is read character by character. -/
theorem ofChars_flatMap_doubled (cs rest : List Char) :
    ofChars (cs.flatMap doubled ++ rest) =
      (ofChars rest).map fun format => cs.foldr DateFormat.pushLiteral format := by
  induction cs with
  | nil => cases h : ofChars rest <;> simp [h, Except.map]
  | cons c cs ih =>
      rw [List.flatMap_cons, List.append_assoc, ofChars_append (step_doubled c), ih]
      cases ofChars rest <;> rfl

/-- The characters in front of a format that does not start with a literal become one. -/
theorem foldr_pushLiteral (hhead : ∀ t, format.head? ≠ some (.literal t)) (c : Char)
    (cs : List Char) : (c :: cs).foldr DateFormat.pushLiteral format =
      .literal (String.ofList (c :: cs)) :: format := by
  induction cs generalizing c with
  | nil =>
      match format, hhead with
      | [], _ => simp [DateFormat.pushLiteral]
      | .literal t :: rest, hhead => exact absurd rfl (hhead t)
      | .field f :: rest, _ => simp [DateFormat.pushLiteral]
  | cons d cs ih =>
      rw [List.foldr_cons, ih d]
      simp [DateFormat.pushLiteral]

/-- What is written for a merged format is read as the format. -/
theorem ofChars_written (h : Merged format) :
    ofChars (format.flatMap Part.written) = .ok format := by
  induction format with
  | nil => rfl
  | cons part rest ih =>
      cases part with
      | field f =>
          have hrest := ih (merged_field_cons.1 h)
          rw [List.flatMap_cons, Part.written, ofChars_append (.field f), hrest]
          rfl
      | literal text =>
          obtain ⟨htext, hhead, hmerged⟩ := merged_literal_cons.1 h
          obtain ⟨c, cs, hcs⟩ : ∃ c cs, text.toList = c :: cs := by
            refine List.exists_cons_of_ne_nil fun hnil => htext ?_
            exact String.toList_injective hnil
          rw [List.flatMap_cons, Part.written, ofChars_flatMap_doubled, ih hmerged]
          show Except.ok (text.toList.foldr DateFormat.pushLiteral rest) = _
          rw [hcs, foldr_pushLiteral hhead, ← hcs, String.ofList_toList]

/-- **Reading and writing** undo each other. -/
theorem ofChars_eq_ok_iff :
    ofChars cs = .ok format ↔ Merged format ∧ format.flatMap Part.written = cs := by
  constructor
  · intro h
    induction cs using textInduction generalizing format with
    | nil =>
        cases h
        exact ⟨merged_nil, rfl⟩
    | stray cs f hstray => cases (ofChars_stray hstray).symm.trans h
    | step front add cs hstep ih =>
        rw [ofChars_append hstep] at h
        obtain ⟨behind, hbehind, rfl⟩ := map_eq_ok.1 h
        obtain ⟨hmerged, hwritten⟩ := ih hbehind
        exact ⟨hstep.merged hmerged, by rw [hstep.written_eq, hwritten]⟩
  · rintro ⟨h, rfl⟩
    exact ofChars_written h

end DateFormat

/-! ## Printed fields -/

namespace DateField

/-- The digits of a number, with zeros in front up to a width and none beyond it. -/
structure Padded (width n : Nat) (cs : List Char) : Prop where
  digits : ∀ c ∈ cs, c.isDigit = true
  value : Nat.ofDigitChars 10 cs 0 = n
  width_le : width ≤ cs.length
  tight : width < cs.length → cs.head? ≠ some '0'

theorem head?_toDigits {n : Nat} (h : 1 < (Nat.toDigits 10 n).length) :
    (Nat.toDigits 10 n).head? ≠ some '0' := by
  intro hzero
  obtain ⟨cs, hcs⟩ := List.head?_eq_some_iff.1 hzero
  have hdigits : ∀ c ∈ cs, c.isDigit = true := fun c hc =>
    isDigit_of_mem_decimal (n := n) (hcs ▸ List.mem_cons_of_mem _ hc)
  have hvalue : Nat.ofDigitChars 10 cs 0 = n := by
    have hall := Nat.ofDigitChars_ten_toDigits (n := n)
    rwa [hcs, Nat.ofDigitChars_cons] at hall
  -- Without the zero there would be fewer digits than the number has.
  have hlt := Rfc3339.ofDigitChars_lt hdigits
  rw [hcs, List.length_cons] at h
  rw [hvalue, ← Nat.length_toDigits_le_iff (by decide) (by omega), hcs, List.length_cons] at hlt
  omega

theorem padded_padded {width : Nat} (hwidth : 0 < width) (n : Nat) :
    Padded width n (Rfc3339.padded width n).toList := by
  rw [Rfc3339.padded, String.toList_ofList]
  refine ⟨fun _ => isDigit_of_mem_padded, ?_, ?_, fun hlt => ?_⟩
  · rw [Nat.ofDigitChars_append, Nat.ofDigitChars_replicate_zero, Nat.mul_zero,
      Nat.ofDigitChars_ten_toDigits]
  · rw [List.length_append, List.length_replicate]
    omega
  · rw [List.length_append, List.length_replicate] at hlt
    have hnone : width - (Nat.toDigits 10 n).length = 0 := by omega
    rw [hnone, List.replicate_zero, List.nil_append]
    exact head?_toDigits (by omega)

/-- The number of an instant that a field shows. -/
def number (t : Instant) : DateField → Int
  | year => t.date.year
  | month => t.date.month
  | day => t.date.day
  | hour => t.hour
  | minute => t.minute
  | second => t.secondOfMinute
  | millisecond => (t.nanos / 1000000 : Nat)
  | dayOfYear => t.date.dayOfYear

/-- The number of characters that a field has at least. -/
def width : DateField → Nat
  | year => 4
  | millisecond => 3
  | dayOfYear => 3
  | _ => 2

/-- The characters show a number in decimal digits with zeros in front up to a width, in which a
sign counts. -/
inductive Prints (width : Nat) : Int → List Char → Prop where
  | nat {n : Nat} {cs : List Char} (h : Padded width n cs) : Prints width n cs
  | neg {n : Nat} {cs : List Char} (hn : 0 < n) (h : Padded (width - 1) n cs) :
      Prints width (-n) ('-' :: cs)

theorem prints_yearText (year : Int) : Prints 4 year (yearText year).toList := by
  unfold yearText
  split
  · have hyear : year = -(year.natAbs : Int) := by omega
    have hprints : Prints 4 (-(year.natAbs : Int)) ('-' :: (Rfc3339.padded 3 year.natAbs).toList) :=
      .neg (by omega) (padded_padded (by decide) _)
    rw [← hyear] at hprints
    simpa using hprints
  · have hyear : (year.toNat : Int) = year := by omega
    have hprints : Prints 4 year.toNat (Rfc3339.padded 4 year.toNat).toList :=
      .nat (padded_padded (by decide) _)
    rwa [hyear] at hprints

/-- **A field is shown as its number**, padded with zeros. -/
theorem prints_text (t : Instant) (f : DateField) :
    Prints f.width (f.number t) (f.text t).toList := by
  cases f with
  | year => exact prints_yearText t.date.year
  | _ => exact .nat (padded_padded (by decide) _)

end DateField

/-! ## Texts of formats -/

namespace DateFormat

/-- The characters that a part shows of an instant: those of a literal, or a printed number. -/
inductive Part.Shows (t : Instant) : Part → List Char → Prop where
  | literal (text : String) : Part.Shows t (.literal text) text.toList
  | field {f : DateField} {cs : List Char} (h : DateField.Prints f.width (f.number t) cs) :
      Part.Shows t (.field f) cs

theorem Part.shows_render (t : Instant) (p : Part) : p.Shows t (p.render t).toList := by
  cases p with
  | literal text => exact .literal text
  | field f => exact .field (f.prints_text t)

theorem toList_render (format : DateFormat) (t : Instant) : (format.render t).toList =
    (format.map fun p => (p.render t).toList).flatten := by
  induction format with
  | nil => rfl
  | cons p rest ih =>
      rw [List.map_cons, List.flatten_cons, ← ih]
      simp [render]

/-- What reading a text as a format says about the text. -/
structure ReadsBack (text : String) : Prop where
  /-- It fails iff it comes to a percent sign that the end follows, or a character that may not. -/
  fails : (∃ f, parse text = .error f) ↔ ∃ rest f, ComesTo text.toList rest ∧ Stray rest f
  /-- The error is that of the first such sign. -/
  first : ∀ f, parse text = .error f ↔ ∃ before rest format,
    text.toList = before ++ rest ∧ parse (String.ofList before) = .ok format ∧ Stray rest f
  /-- It gives the merged format that the text is written for. -/
  succeeds : ∀ format, parse text = .ok format ↔ Merged format ∧ written format = text
  /-- What the format shows of an instant is what its parts show, one after the other. -/
  shown : ∀ format, parse text = .ok format → ∀ t, ∃ pieces,
    List.Forall₂ (Part.Shows t) format pieces ∧ (format.render t).toList = pieces.flatten

/-- **Texts of formats.** Every text is read as the one format that is written so, or fails at its
first stray percent sign. -/
theorem readsBack (text : String) : ReadsBack text where
  fails := exists_ofChars_eq_error_iff
  first f := by
    simp only [parse, String.toList_ofList]
    exact ofChars_eq_error_iff
  succeeds format := by
    rw [parse, ofChars_eq_ok_iff, written, ← String.toList_inj, String.toList_ofList]
  shown format _ t := by
    refine ⟨format.map fun p => (p.render t).toList, ?_, toList_render format t⟩
    exact List.forall₂_map_right_iff.2 (List.forall₂_same.2 fun p _ => p.shows_render t)

example : parse "100%% of %j" = .ok [.literal "100% of ", .field .dayOfYear] := rfl

end DateFormat

end DocStore
