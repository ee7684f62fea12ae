import DocStore.Proofs.Number.Rounding
import DocStore.Proofs.Value.Writable

/-!
# What the JSON form keeps

The JSON form of a value stands for an equal one iff nothing inside the value is `Lossy`: a double
that is not finite, a date that is not kept by its text, or an object of the form that dates have in
JSON. So one lossy value at some depth is enough for the whole to change:
`Value.equal_ofJson_toJson_iff`.
-/

set_option autoImplicit false

namespace DocStore.Value

/-- A scalar or object that its JSON form does not stand for. -/
inductive Lossy : Value → Prop
  | float {f : Float} (h : Binary64.isFinite f = false) : Lossy (float f)
  /-- The text of a date has no more than milliseconds. -/
  | fraction {t : Instant} (h : ¬ 1000000 ∣ t.nanos) : Lossy (date t)
  /-- Only years of four digits are read. -/
  | year {t : Instant} (h : ¬ t.HasShortYear) : Lossy (date t)
  /-- An object that is read as a date, by its text. -/
  | text {s : String} {t : Instant} (h : Rfc3339.parse? s = some t) :
      Lossy (object [(dateField, string s)])
  /-- An object that is read as a date, by its milliseconds. -/
  | millis {n : Int64} {t : Instant} (h : Instant.ofMillis? n.toInt = some t) :
      Lossy (object [(dateField, int n)])

/-- Nothing in a value is lossy: no scalar, and no object. -/
def Lossless : Value → Prop :=
  Everywhere (fun v => ¬ Lossy v) fun fields => ¬ Lossy (object fields)

/-- The same of the items of an array. -/
def LosslessItems : List Value → Prop :=
  EverywhereItems (fun v => ¬ Lossy v) fun fields => ¬ Lossy (object fields)

/-- The same of the values of fields. -/
def LosslessFields : List (String × Value) → Prop :=
  EverywhereFields (fun v => ¬ Lossy v) fun fields => ¬ Lossy (object fields)

theorem lossless_iff {v : Value} : Lossless v ↔ ∀ w, Inside w v → ¬ Lossy w := by
  refine everywhere_iff_inside.trans (forall₂_congr fun w _ => ?_)
  cases w with
  | array items => exact iff_of_true trivial fun h => by cases h
  | _ => exact Iff.rfl

/-! ## Scalars -/

theorem lossy_date_iff {t : Instant} : ¬ Lossy (date t) ↔ t.HasShortYear ∧ 1000000 ∣ t.nanos := by
  constructor
  · intro h
    exact ⟨not_not.1 fun hyear => h (.year hyear), not_not.1 fun hnanos => h (.fraction hnanos)⟩
  · rintro ⟨hyear, hnanos⟩ h
    cases h with
    | fraction h => exact h hnanos
    | year h => exact h hyear

theorem ofJson_toJson_int (n : Int64) : ofJson (toJson (int n)) = int n := by
  rw [toJson, ofJson, ofNumber, Json.Number.toInt64?, Checked.ofInt?_toInt]

theorem equal_ofJson_toJson_float (f : Float) :
    equal (ofJson (toJson (float f))) (float f) = true ↔ ¬ Lossy (float f) := by
  cases hf : Binary64.isFinite f with
  | true =>
      have hvalue : ofJson (toJson (float f)) = float f := by
        rw [toJson, if_pos hf]
        rfl
      have hself : Binary64.equal f f = true := by
        have hnan := Binary64.isNaN_eq_false_of_isFinite hf
        exact Binary64.equal_iff.2 ⟨hnan, hnan, rfl⟩
      rw [hvalue]
      refine iff_of_true hself fun h => ?_
      cases h with
      | float h => simp [hf] at h
  | false =>
      -- The double was written as null, which equals no number.
      have hvalue : ofJson (toJson (float f)) = null := by
        rw [toJson, if_neg (by simp [hf])]
        rfl
      rw [hvalue]
      exact iff_of_false Bool.false_ne_true (not_not.2 (.float hf))

theorem equal_ofJson_toJson_date {t : Instant} (ht : t.Regular) :
    equal (ofJson (toJson (date t))) (date t) = true ↔ ¬ Lossy (date t) := by
  rw [lossy_date_iff, ← Rfc3339.parse?_text_eq_self ht, toJson, ofJson_dateField]
  cases Rfc3339.parse? (Rfc3339.text t) with
  | none => simp [equal, equalNumbers]
  | some t' => simp [equal]

/-! ## Objects -/

/-- The content of a `$date` field names an instant if it is a text or an integer that does. -/
theorem instant?_toJson {v : Value} {t : Instant} : instant? v.toJson = some t ↔
    (∃ s, v = string s ∧ Rfc3339.parse? s = some t) ∨
      ∃ n, v = int n ∧ Instant.ofMillis? n.toInt = some t := by
  cases v with
  | string s => simp [toJson, instant?]
  | int n => simp [toJson, instant?, Json.Number.toInt64?, Checked.ofInt?_toInt]
  | float f =>
      rw [toJson]
      split <;> simp [instant?, Json.Number.toInt64?]
  | _ => simp [toJson, instant?]

theorem wrappedDate?_toJsonFields {fields : List (String × Value)} :
    wrappedDate? (toJsonFields fields) = none ↔ ¬ Lossy (object fields) := by
  rw [Option.eq_none_iff_forall_ne_some]
  constructor
  · intro h hlossy
    cases hlossy with
    | @text s t hs => exact h t (instant?_toJson.2 (.inl ⟨s, rfl, hs⟩))
    | @millis n t hn => exact h t (instant?_toJson.2 (.inr ⟨n, rfl, hn⟩))
  · intro h t ht
    match fields with
    | [(k, v)] =>
        obtain ⟨rfl, hv⟩ := Option.ite_none_right_eq_some.1 ht
        rcases instant?_toJson.1 hv with ⟨s, rfl, hs⟩ | ⟨n, rfl, hn⟩
        · exact h (.text hs)
        · exact h (.millis hn)

theorem keys_toJsonFields (fields : List (String × Value)) :
    Fields.keys (toJsonFields fields) = Fields.keys fields := by
  induction fields with
  | nil => rfl
  | cons e rest ih => exact congrArg (e.1 :: ·) ih

/-- An object that is not read as a date keeps its fields, each in its JSON form. -/
theorem ofJson_toJson_object {fields : List (String × Value)} (h : ¬ Lossy (object fields)) :
    ofJson (toJson (object fields)) = object (ofJsonFields (toJsonFields fields)) := by
  rw [toJson, ofJson_object_eq, wrappedDate?_toJsonFields.2 h]
  rfl

/-- An object that is read as a date equals it no more. -/
theorem equal_ofJson_toJson_of_lossy {fields : List (String × Value)}
    (h : Lossy (object fields)) :
    equal (ofJson (toJson (object fields))) (object fields) = false := by
  obtain ⟨t, ht⟩ : ∃ t, wrappedDate? (toJsonFields fields) = some t :=
    Option.ne_none_iff_exists'.1 fun hnone => wrappedDate?_toJsonFields.1 hnone h
  rw [toJson, ofJson_object_eq, ht]
  rfl

/-! ## Values -/

mutual

theorem lossless_iff_equal : ∀ v : Value, v.Regular →
    (equal (ofJson v.toJson) v = true ↔ v.Lossless)
  | .null, _ => iff_of_true rfl fun h => by cases h
  | .bool b, _ => iff_of_true (by simp [toJson, ofJson, equal]) fun h => by cases h
  | .string s, _ => iff_of_true (by simp [toJson, ofJson, equal]) fun h => by cases h
  | .int n, _ => by
      rw [ofJson_toJson_int]
      exact iff_of_true (by simp [equal, equalNumbers]) fun h => by cases h
  | .float f, _ => equal_ofJson_toJson_float f
  | .date _, h => equal_ofJson_toJson_date h
  | .array items, h => losslessItems_iff_equal items h
  | .object fields, h => by
      by_cases hlossy : Lossy (object fields)
      -- A date is read, and no object equals a date, whatever its fields are.
      · rw [equal_ofJson_toJson_of_lossy hlossy]
        exact iff_of_false Bool.false_ne_true fun hall => hall.1 hlossy
      · have hlength : (ofJsonFields (toJsonFields fields)).length = fields.length :=
          Fields.length_eq_of_keys ((keys_ofJsonFields _).trans (keys_toJsonFields fields))
        rw [ofJson_toJson_object hlossy, equal, hlength, beq_self_eq_true, Bool.true_and,
          losslessFields_iff_equal fields h.2 fun e he => Fields.get?_of_mem h.1 he]
        exact (and_iff_right hlossy).symm

theorem losslessItems_iff_equal : ∀ items : List Value, RegularItems items →
    (equalItems (ofJsonItems (toJsonItems items)) items = true ↔ LosslessItems items)
  | [], _ => iff_of_true rfl trivial
  | v :: rest, h => by
      rw [toJsonItems, ofJsonItems, equalItems, Bool.and_eq_true, lossless_iff_equal v h.1,
        losslessItems_iff_equal rest h.2]
      exact Iff.rfl

/-- Fields are lossless iff each is read back as one that equals what is found under its name. -/
theorem losslessFields_iff_equal : ∀ {others : Fields Value} (fields : List (String × Value)),
    RegularFields fields → (∀ e ∈ fields, Fields.get? others e.1 = some e.2) →
    (equalFields (ofJsonFields (toJsonFields fields)) others = true ↔ LosslessFields fields)
  | _, [], _, _ => iff_of_true rfl trivial
  -- `others` stays whole while `fields` gets shorter, as in the comparison itself.
  | others, (k, v) :: rest, h, hothers => by
      have hrest := losslessFields_iff_equal rest h.2 fun e he =>
        hothers e (List.mem_cons_of_mem (k, v) he)
      have hv : Fields.get? others k = some v := hothers (k, v) List.mem_cons_self
      rw [toJsonFields, ofJsonFields, equalFields, hv, Bool.and_eq_true, hrest]
      exact and_congr_left' (lossless_iff_equal v h.1)

end

/-- **What survives the JSON form.** A value with regular dates, and no two fields of one name in an
object, is read back from its JSON form as an equal one iff nothing inside it is lossy: no double
that is not finite, no date with a part of a millisecond or outside the years 0 to 9999, and no
object that has the form of a date. -/
theorem equal_ofJson_toJson_iff {v : Value} (hv : v.Regular) :
    equal (ofJson v.toJson) v = true ↔ ∀ w, Inside w v → ¬ Lossy w :=
  (lossless_iff_equal v hv).trans lossless_iff

/-- A date inside a leap second is kept, and so is a text under the name of dates that is none; a
text that is one makes a date of the object that it stands in. -/
theorem equal_ofJson_toJson_iff_visit :
    let kept : Value := object [("_id", int 7), ("at", date ⟨1483228799, 1500000000⟩),
      ("next", object [("$date", string "soon")]), ("fees", array [float 2.5, float (-0.0)])]
    let changed : Value := object [("_id", int 8),
      ("next", array [object [("$date", string "2017-01-01T00:00:00Z")]])]
    (kept.Regular ∧ equal (ofJson kept.toJson) kept = true ∧ ∀ w, Inside w kept → ¬ Lossy w) ∧
      changed.Regular ∧ (∃ w, Inside w changed ∧ Lossy w) ∧
        equal (ofJson changed.toJson) changed = false := by
  intro kept changed
  have hkept : kept.Regular :=
    ⟨by decide, trivial, ⟨by decide, by decide, by decide⟩, ⟨by decide, trivial, trivial⟩,
      ⟨trivial, trivial, trivial⟩, trivial⟩
  have hchanged : changed.Regular :=
    ⟨by decide, trivial, ⟨⟨by decide, trivial, trivial⟩, trivial⟩, trivial⟩
  have hequal : equal (ofJson kept.toJson) kept = true := by decide +kernel
  have hlossy : Lossy (object [("$date", string "2017-01-01T00:00:00Z")]) :=
    .text (t := ⟨1483228800, 0⟩) (by decide +kernel)
  have hinside : Inside (object [("$date", string "2017-01-01T00:00:00Z")]) changed :=
    .field (List.mem_cons_of_mem _ List.mem_cons_self) (.item List.mem_cons_self .here)
  refine ⟨⟨hkept, hequal, (equal_ofJson_toJson_iff hkept).1 hequal⟩, hchanged,
    ⟨_, hinside, hlossy⟩, Bool.eq_false_iff.2 fun h => ?_⟩
  exact (equal_ofJson_toJson_iff hchanged).1 h _ hinside hlossy

end DocStore.Value
