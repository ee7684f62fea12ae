import Mathlib.Tactic.MkIffOfInductiveProp
import DocStore.Proofs.Fields
import DocStore.Proofs.Schema.Accept

/-!
# Satisfying a schema

The check of a field is a sequence of checks, each of which applies to values of some kinds only:
`FieldSchema.check_eq`. `Schema.Satisfied` says what a schema asks for, without an order in which it
is asked: required names are keys, the values of declared fields satisfy what is declared for them,
and where nothing else is allowed all other keys but the id are declared. `FieldSchema.Satisfied`
says the same of a value. The check passes iff this holds
(`Schema.checkFields_eq_ok_iff_satisfied`).
-/

set_option autoImplicit false

namespace DocStore

/-! ## The parts of a check -/

variable {α : Type} {P : ValidationError → Prop}

/-- Checks what there is, if there is anything. -/
def checkSome (o : Option α) (check : α → Verdict) : Verdict :=
  match o with
  | none => .ok ()
  | some a => check a

theorem checkSome_eq_ok {o : Option α} {check : α → Verdict} :
    checkSome o check = .ok () ↔ ∀ a, o = some a → check a = .ok () := by
  cases o <;> simp [checkSome]

theorem checkSome_eq_error {o : Option α} {check : α → Verdict} {e : ValidationError} :
    checkSome o check = .error e ↔ ∃ a, o = some a ∧ check a = .error e := by
  cases o <;> simp [checkSome]

theorem failsOnly_checkSome {o : Option α} {check : α → Verdict}
    (h : ∀ a, o = some a → FailsOnly P (check a)) : FailsOnly P (checkSome o check) := by
  cases o with
  | none => exact failsOnly_ok ()
  | some a => exact h a rfl

namespace FieldSchema

/-- The check of the items of an array. -/
def checkEach (items : Option FieldSchema) (field : String) (vs : List Value) : Verdict :=
  checkSome items fun s => checkItems (fun i w => s.check (field ++ "." ++ toString i) w) 0 vs

/-- The check of the fields of an object in a field. -/
def checkInside (field : String) (v : Value) (s : Schema) : Verdict :=
  checkSome v.object? fun fields => (Schema.checkFields fields s).nestedUnder field

/-- **The parts of the check of a field**, in their order. -/
theorem check_eq (own : ValueConstraints) (items : Option FieldSchema) (object : Option Schema)
    (field : String) (v : Value) :
    (mk own items object).check field v = (do
      own.checkKind field v
      checkSome v.string? (own.checkString field)
      checkSome v.float? (own.checkNumber field v)
      own.checkAllowed field v
      checkSome v.array? (own.checkLength field)
      checkSome v.array? (checkEach items field)
      checkSome v.array? (own.checkUnique field)
      checkSome object (checkInside field v)) := by
  cases v <;> cases items <;> cases object <;> rfl

end FieldSchema

/-! ## What is asked for -/

namespace ValueConstraints

/-- The length is not less than the least and not more than the greatest. -/
def Fits (c : ValueConstraints) (n : Nat) : Prop :=
  (∀ least, c.minLength = some least → least ≤ n) ∧ ∀ most, c.maxLength = some most → n ≤ most

/-- What the constraints on a value itself ask for. -/
@[mk_iff]
structure Met (c : ValueConstraints) (v : Value) : Prop where
  kind : c.kinds = [] ∨ v.kind ∈ c.kinds
  length : ∀ s, v.string? = some s → c.Fits s.length
  pattern : ∀ s, v.string? = some s → ∀ p, c.pattern = some p → p.regex.isMatch s = true
  minimum : ∀ x, v.float? = some x → ∀ b, c.minimum = some b →
    Binary64.compare? x b ≠ some .lt
  maximum : ∀ x, v.float? = some x → ∀ b, c.maximum = some b →
    Binary64.compare? x b ≠ some .gt
  allowed : ∀ vs, c.allowed = some vs → ∃ w ∈ vs, Value.equal w v = true
  count : ∀ vs, v.array? = some vs → c.Fits vs.length
  unique : ∀ vs, v.array? = some vs → c.uniqueItems = true →
    (vs.map Value.canonicalKey).Nodup

end ValueConstraints

mutual

/-- What the schema of a field asks a value for. -/
inductive FieldSchema.Satisfied : FieldSchema → Value → Prop
  | mk {own : ValueConstraints} {items : Option FieldSchema} {object : Option Schema} {v : Value}
      (hown : own.Met v)
      (hitems : ∀ vs, v.array? = some vs → ∀ s, items = some s → ∀ w ∈ vs, s.Satisfied w)
      (hobject : ∀ fields, v.object? = some fields → ∀ s, object = some s →
        Schema.Satisfied s fields) :
      (FieldSchema.mk own items object).Satisfied v

/-- What a schema asks an object for. -/
inductive Schema.Satisfied : Schema → Fields Value → Prop
  | mk {s : Schema} {fields : Fields Value}
      (hrequired : ∀ name ∈ s.required, name ∈ Fields.keys fields)
      (hproperties : ∀ name f, (name, f) ∈ s.properties → ∀ v, Fields.get? fields name = some v →
        f.Satisfied v)
      (hothers : s.additional = false → ∀ name ∈ Fields.keys fields,
        name = idField ∨ name ∈ Fields.keys s.properties) :
      Schema.Satisfied s fields

end

theorem FieldSchema.satisfied_iff {own : ValueConstraints} {items : Option FieldSchema}
    {object : Option Schema} {v : Value} :
    (FieldSchema.mk own items object).Satisfied v ↔ own.Met v ∧
      (∀ vs, v.array? = some vs → ∀ s, items = some s → ∀ w ∈ vs, s.Satisfied w) ∧
      ∀ fields, v.object? = some fields → ∀ s, object = some s → s.Satisfied fields :=
  ⟨fun h => by cases h with | mk hown hitems hobject => exact ⟨hown, hitems, hobject⟩,
    fun h => .mk h.1 h.2.1 h.2.2⟩

theorem Schema.satisfied_iff {s : Schema} {fields : Fields Value} :
    s.Satisfied fields ↔
      (∀ name ∈ s.required, name ∈ Fields.keys fields) ∧
      (∀ name f, (name, f) ∈ s.properties → ∀ v, Fields.get? fields name = some v →
        f.Satisfied v) ∧
      (s.additional = false → ∀ name ∈ Fields.keys fields,
        name = idField ∨ name ∈ Fields.keys s.properties) :=
  ⟨fun h => by cases h with | mk hrequired hproperties hothers =>
      exact ⟨hrequired, hproperties, hothers⟩,
    fun h => .mk h.1 h.2.1 h.2.2⟩

/-! ## The constraints on a value itself -/

namespace ValueConstraints

variable {c : ValueConstraints} {field : String} {v : Value}

theorem bounded_eq_ok {β : Type} {bound : Option β} {broken : β → Bool} {report : β → Constraint} :
    bounded field bound broken report = .ok () ↔ ∀ b, bound = some b → broken b = false := by
  cases bound with
  | none => simp [bounded]
  | some b => cases hb : broken b <;> simp [bounded, refuse, hb]

theorem checkKind_eq_ok : c.checkKind field v = .ok () ↔ c.kinds = [] ∨ v.kind ∈ c.kinds := by
  unfold checkKind
  split
  · rename_i h
    simpa using h
  · rename_i h
    simpa using h

theorem checkString_eq_ok {s : String} : c.checkString field s = .ok () ↔
    c.Fits s.length ∧ ∀ p, c.pattern = some p → p.regex.isMatch s = true := by
  rw [checkString, andThen_eq_ok, andThen_eq_ok, bounded_eq_ok, bounded_eq_ok, bounded_eq_ok]
  simp [Fits, and_assoc]

theorem checkNumber_eq_ok {x : Float} : c.checkNumber field v x = .ok () ↔
    (∀ b, c.minimum = some b → Binary64.compare? x b ≠ some .lt) ∧
      ∀ b, c.maximum = some b → Binary64.compare? x b ≠ some .gt := by
  rw [checkNumber, andThen_eq_ok, bounded_eq_ok, bounded_eq_ok]
  simp

theorem checkAllowed_eq_ok : c.checkAllowed field v = .ok () ↔
    ∀ vs, c.allowed = some vs → ∃ w ∈ vs, Value.equal w v = true := by
  rw [checkAllowed, bounded_eq_ok]
  simp

theorem checkLength_eq_ok {vs : List Value} :
    c.checkLength field vs = .ok () ↔ c.Fits vs.length := by
  rw [checkLength, andThen_eq_ok, bounded_eq_ok, bounded_eq_ok]
  simp [Fits]

/-- No item repeats a key iff the keys differ from each other and from those seen before. -/
theorem duplicate?_eq_none {seen : List String} {vs : List Value} :
    duplicate? seen vs = none ↔
      (vs.map Value.canonicalKey).Nodup ∧ ∀ key ∈ vs.map Value.canonicalKey, key ∉ seen := by
  induction vs generalizing seen with
  | nil => simp [duplicate?]
  | cons v rest ih =>
      unfold duplicate?
      split
      · rename_i h
        simp_all
      · rename_i h
        rw [ih, List.map_cons, List.nodup_cons, List.forall_mem_cons]
        simp only [List.mem_cons, not_or, List.contains_iff_mem] at h ⊢
        -- What the search has seen so far grows by the first key.
        constructor
        · rintro ⟨hnodup, hseen⟩
          exact ⟨⟨fun hmem => (hseen _ hmem).1 rfl, hnodup⟩, h, fun key hkey => (hseen key hkey).2⟩
        · rintro ⟨⟨hmem, hnodup⟩, -, hseen⟩
          exact ⟨hnodup, fun key hkey => ⟨fun heq => hmem (heq ▸ hkey), hseen key hkey⟩⟩

theorem checkUnique_eq_ok {vs : List Value} : c.checkUnique field vs = .ok () ↔
    (c.uniqueItems = true → (vs.map Value.canonicalKey).Nodup) := by
  unfold checkUnique
  cases c.uniqueItems with
  | false => simp
  | true =>
      have hnone := @duplicate?_eq_none [] vs
      cases hdup : duplicate? [] vs with
      | none => simpa [hdup] using hnone
      | some w => simpa [hdup, refuse] using hnone

end ValueConstraints

/-! ## The check passes iff the schema is satisfied -/

/-- The check of items passes iff each of them passes what the check of an item stands for. -/
theorem checkItems_eq_ok {check : Nat → Value → Verdict} {p : Value → Prop}
    (h : ∀ i w, check i w = .ok () ↔ p w) (vs : List Value) :
    ∀ i, checkItems check i vs = .ok () ↔ ∀ w ∈ vs, p w := by
  induction vs with
  | nil => simp [checkItems]
  | cons v rest ih =>
      intro i
      rw [checkItems, andThen_eq_ok, h, ih, List.forall_mem_cons]

theorem nestedUnder_eq_ok {parent : String} {verdict : Verdict} :
    verdict.nestedUnder parent = .ok () ↔ verdict = .ok () := by
  cases verdict <;> simp [Verdict.nestedUnder]

namespace FieldSchema

/-- The check of a field in its parts, each as what it asks for. -/
theorem check_eq_ok_parts {own : ValueConstraints} {items : Option FieldSchema}
    {object : Option Schema} {field : String} {v : Value} :
    (mk own items object).check field v = .ok () ↔ own.Met v ∧
      (∀ vs, v.array? = some vs → ∀ s, items = some s →
        checkItems (fun i w => s.check (field ++ "." ++ toString i) w) 0 vs = .ok ()) ∧
      ∀ fields, v.object? = some fields → ∀ s, object = some s →
        Schema.checkFields fields s = .ok () := by
  simp only [check_eq, checkEach, checkInside, andThen_eq_ok, checkSome_eq_ok, nestedUnder_eq_ok,
    ValueConstraints.checkKind_eq_ok, ValueConstraints.checkString_eq_ok,
    ValueConstraints.checkNumber_eq_ok, ValueConstraints.checkAllowed_eq_ok,
    ValueConstraints.checkLength_eq_ok, ValueConstraints.checkUnique_eq_ok]
  constructor
  · rintro ⟨hkind, hstring, hnumber, hallowed, hcount, heach, hunique, hinside⟩
    exact ⟨⟨hkind, fun s hs => (hstring s hs).1, fun s hs => (hstring s hs).2,
      fun x hx => (hnumber x hx).1, fun x hx => (hnumber x hx).2, hallowed, hcount, hunique⟩,
      heach, fun fields hfields s hs => hinside s hs fields hfields⟩
  · rintro ⟨h, heach, hinside⟩
    exact ⟨h.kind, fun s hs => ⟨h.length s hs, h.pattern s hs⟩,
      fun x hx => ⟨h.minimum x hx, h.maximum x hx⟩, h.allowed, h.count, heach, h.unique,
      fun s hs fields hfields => hinside fields hfields s hs⟩

end FieldSchema

mutual

/-- **The check of a field passes iff its value satisfies the schema of the field.** -/
theorem FieldSchema.check_eq_ok : (s : FieldSchema) → (field : String) → (v : Value) →
    (s.check field v = .ok () ↔ s.Satisfied v)
  | .mk own items object, field, v => by
    rw [FieldSchema.check_eq_ok_parts, FieldSchema.satisfied_iff]
    refine and_congr_right fun _ => and_congr ?_ ?_
    · exact forall₂_congr fun vs _ => forall₂_congr fun s hs =>
        checkItems_eq_ok (fun _ w => items_check_eq_ok items s hs _ w) vs 0
    · exact forall₂_congr fun fields _ => forall₂_congr fun s hs =>
        object_check_eq_ok object s hs fields

theorem items_check_eq_ok : (items : Option FieldSchema) → ∀ s, items = some s →
    ∀ field v, s.check field v = .ok () ↔ s.Satisfied v
  | some s, _, rfl => FieldSchema.check_eq_ok s

theorem object_check_eq_ok : (object : Option Schema) → ∀ s, object = some s →
    ∀ fields, Schema.checkFields fields s = .ok () ↔ s.Satisfied fields
  | some s, _, rfl => Schema.checkFields_eq_ok_iff_satisfied s

/-- **The check of an object passes iff the object satisfies the schema.** -/
theorem Schema.checkFields_eq_ok_iff_satisfied : (s : Schema) → (fields : Fields Value) →
    (Schema.checkFields fields s = .ok () ↔ s.Satisfied fields)
  | { required, properties, additional }, fields => by
    rw [Schema.checkFields_eq_ok_parts, Schema.satisfied_iff]
    simp only [Fields.contains_iff_mem_keys]
    refine and_congr_right fun _ => and_congr_left fun _ => ?_
    exact forall_congr' fun name => forall_congr' fun f => forall_congr' fun hmem =>
      forall_congr' fun v => imp_congr_right fun _ =>
        properties_check_eq_ok properties _ hmem name v

theorem properties_check_eq_ok : (properties : List (String × FieldSchema)) →
    ∀ e ∈ properties, ∀ field v, e.2.check field v = .ok () ↔ e.2.Satisfied v
  | [], _, he, _, _ => absurd he List.not_mem_nil
  | (k, s) :: rest, e, he, field, v => by
    rcases List.mem_cons.1 he with rfl | he
    · exact FieldSchema.check_eq_ok s field v
    · exact properties_check_eq_ok rest e he field v

end

end DocStore
