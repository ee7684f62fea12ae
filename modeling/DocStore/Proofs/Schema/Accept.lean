import DocStore.Proofs.Except
import DocStore.Schema.Builder

/-!
# What schemas accept

A schema accepts an object iff it accepts each of its fields, there or not: `checkFields_eq_ok`.
The check of one field reads that field only, so whatever keeps the fields that were not checked
keeps an object accepted.
-/

set_option autoImplicit false

namespace DocStore

variable {fields : Fields Value}

/-! ## The parts of the check -/

theorem checkRequired_eq_ok {names : List String} :
    checkRequired fields names = .ok () ↔ ∀ name ∈ names, Fields.contains fields name = true := by
  induction names with
  | nil => simp [checkRequired]
  | cons name rest ih =>
      unfold checkRequired
      split
      · rename_i h
        simp [ih, h]
      · rename_i h
        simp [h]

theorem checkDeclared_eq_ok {declared : String → Bool} :
    checkDeclared declared fields = .ok () ↔
      ∀ name, Fields.contains fields name = true → name = idField ∨ declared name = true := by
  simp only [Fields.contains_iff_mem, forall_exists_index]
  induction fields with
  | nil => simp [checkDeclared]
  | cons e rest ih =>
      obtain ⟨k, w⟩ := e
      unfold checkDeclared
      split
      · rename_i h
        have hk : k = idField ∨ declared k = true := by simpa using h
        rw [ih]
        constructor
        · intro hrest name v hmem
          rcases List.mem_cons.1 hmem with heq | hmem
          · cases heq
            exact hk
          · exact hrest name v hmem
        · exact fun hall name v hmem => hall name v (List.mem_cons_of_mem _ hmem)
      · rename_i h
        have hk : ¬ (k = idField ∨ declared k = true) := by simpa using h
        simp only [reduceCtorEq, false_iff]
        exact fun hall => hk (hall k w List.mem_cons_self)

namespace Schema

theorem checkProperties_eq_ok {properties : Fields FieldSchema} :
    checkProperties fields properties = .ok () ↔ ∀ name f, (name, f) ∈ properties →
      ∀ v, Fields.get? fields name = some v → f.check name v = .ok () := by
  induction properties with
  | nil => simp [checkProperties]
  | cons e rest ih =>
      obtain ⟨k, f⟩ := e
      have hcons : checkProperties fields ((k, f) :: rest) = .ok () ↔
          (∀ v, Fields.get? fields k = some v → f.check k v = .ok ()) ∧
            checkProperties fields rest = .ok () := by
        rw [checkProperties]
        cases Fields.get? fields k with
        | none => simp
        | some v => simpa using andThen_eq_ok
      rw [hcons, ih]
      constructor
      · rintro ⟨hk, hrest⟩ name g hmem
        rcases List.mem_cons.1 hmem with heq | hmem
        · cases heq
          exact hk
        · exact hrest name g hmem
      · intro hall
        exact ⟨hall k f List.mem_cons_self,
          fun name g hmem => hall name g (List.mem_cons_of_mem _ hmem)⟩

/-! ## Schemas that can be built -/

/-- No field is declared twice. -/
def DeclaresOnce (s : Schema) : Prop := (Fields.keys s.properties).Nodup

/-- Schemas that were read or built step by step. -/
inductive Built : Schema → Prop
  | ofJson {j : Json} {s : Schema} (h : Schema.ofJson j = .ok s) : Built s
  | empty : Built empty
  | require {s : Schema} (h : Built s) (name : String) : Built (s.require name)
  | declare {s : Schema} (h : Built s) (name : String) (f : FieldSchema) :
      Built (s.declare name f)
  | allowAdditional {s : Schema} (h : Built s) (allow : Bool) : Built (s.allowAdditional allow)

theorem declaresOnce_readProperties {j : Json} {path : String} {properties : Fields FieldSchema}
    (h : readProperties j path = .ok properties) : (Fields.keys properties).Nodup := by
  unfold readProperties at h
  split at h
  · obtain ⟨entries, _, h⟩ := bind_eq_ok.1 h
    cases h
    exact Fields.nodup_keys_ofEntries entries
  · cases h

theorem declaresOnce_readBody {obj : Fields Json} {path : String} {s : Schema}
    (h : readBody obj path = .ok s) : s.DeclaresOnce := by
  rw [readBody] at h
  obtain ⟨required, _, h⟩ := bind_eq_ok.1 h
  cases hfound : Fields.find? obj "properties" with
  | none =>
      simp only [hfound] at h
      obtain ⟨properties, hproperties, h⟩ := bind_eq_ok.1 h
      obtain ⟨additional, _, h⟩ := bind_eq_ok.1 h
      cases hproperties
      cases h
      exact List.nodup_nil
  | some p =>
      simp only [hfound] at h
      obtain ⟨properties, hproperties, h⟩ := bind_eq_ok.1 h
      obtain ⟨additional, _, h⟩ := bind_eq_ok.1 h
      cases h
      exact declaresOnce_readProperties hproperties

theorem declaresOnce_readObject {obj : Fields Json} {path : String} {s : Schema}
    (h : readObject obj path = .ok s) : s.DeclaresOnce := by
  obtain ⟨names, _, h⟩ := bind_eq_ok.1 h
  cases names with
  | none => exact declaresOnce_readBody h
  | some names =>
      simp only at h
      split at h
      · exact declaresOnce_readBody h
      · cases h

theorem declaresOnce_ofJson {j : Json} {s : Schema} (h : ofJson j = .ok s) : s.DeclaresOnce := by
  induction j using ofJson.induct with
  | case1 obj inner hinner hsmaller ih =>
      rw [ofJson, hinner] at h
      exact ih h
  | case2 obj hinner =>
      rw [ofJson, hinner] at h
      exact declaresOnce_readObject h
  | case3 j hobj =>
      rw [ofJson] at h
      · cases h
      · exact hobj

theorem Built.declaresOnce {s : Schema} (h : Built s) : s.DeclaresOnce := by
  induction h with
  | ofJson h => exact declaresOnce_ofJson h
  | empty => exact List.nodup_nil
  | require _ _ ih => exact ih
  | declare _ name f ih => exact Fields.nodup_keys_insert ih name f
  | allowAdditional _ _ ih => exact ih

/-! ## Field by field -/

variable {s : Schema}

/-- What the check of an object asks for, part by part. -/
theorem checkFields_eq_ok_parts : checkFields fields s = .ok () ↔
    (∀ name ∈ s.required, Fields.contains fields name = true) ∧
    (∀ name f, (name, f) ∈ s.properties → ∀ v, Fields.get? fields name = some v →
      f.check name v = .ok ()) ∧
    (s.additional = false → ∀ name, Fields.contains fields name = true →
      name = idField ∨ Fields.contains s.properties name = true) := by
  obtain ⟨required, properties, additional⟩ := s
  rw [checkFields, andThen_eq_ok, andThen_eq_ok, checkRequired_eq_ok, checkProperties_eq_ok]
  cases additional with
  | true => simp [pure, Except.pure]
  | false => simp [checkDeclared_eq_ok, Fields.contains_iff_mem]

/-- What the check of a field asks for, in the same parts. -/
theorem checkField_eq_ok {name : String} : s.checkField fields name = .ok () ↔
    (name ∈ s.required → Fields.contains fields name = true) ∧
    (∀ f v, Fields.get? fields name = some v → Fields.get? s.properties name = some f →
      f.check name v = .ok ()) ∧
    (s.additional = false → Fields.contains fields name = true →
      name = idField ∨ Fields.contains s.properties name = true) := by
  unfold checkField
  cases hv : Fields.get? fields name with
  | none => simp [Fields.contains, hv]
  | some v =>
      cases hf : Fields.get? s.properties name with
      | some f => simp [Fields.contains, hv, hf]
      | none =>
          cases hadditional : s.additional <;> simp [Fields.contains, hv, hf]

/-- **A schema accepts an object iff it accepts each of its fields, there or not.** -/
theorem checkFields_eq_ok (h : s.DeclaresOnce) :
    checkFields fields s = .ok () ↔ ∀ name, s.checkField fields name = .ok () := by
  simp only [checkFields_eq_ok_parts, checkField_eq_ok]
  constructor
  · rintro ⟨hrequired, hdeclared, hothers⟩ name
    exact ⟨hrequired name, fun f v hv hf => hdeclared name f (Fields.mem_of_get? hf) v hv,
      fun hadditional => hothers hadditional name⟩
  · intro hall
    refine ⟨fun name => (hall name).1, ?_, fun hadditional name => (hall name).2.2 hadditional⟩
    -- A declaration counts only if it is the first of its name.
    intro name f hmem v hv
    exact (hall name).2.1 f v hv (Fields.get?_of_mem h hmem)

/-- The check of a field reads that field only. -/
theorem checkField_congr {other : Fields Value} {name : String}
    (h : Fields.get? other name = Fields.get? fields name) :
    s.checkField other name = s.checkField fields name := by
  rw [checkField, h, checkField]

theorem checkNamed_eq_ok {names : List String} :
    s.checkNamed fields names = .ok () ↔ ∀ name ∈ names, s.checkField fields name = .ok () := by
  induction names with
  | nil => simp [checkNamed]
  | cons name rest ih => rw [checkNamed, andThen_eq_ok, ih, List.forall_mem_cons]

/-- Where only checked fields differ, an accepted object gives way to an accepted one. -/
theorem checkFields_of_checkNamed (h : s.DeclaresOnce) {old : Fields Value} {names : List String}
    (hold : checkFields old s = .ok ()) (hnamed : s.checkNamed fields names = .ok ())
    (hframe : ∀ name, name ∉ names → Fields.get? fields name = Fields.get? old name) :
    checkFields fields s = .ok () := by
  rw [checkFields_eq_ok h] at hold ⊢
  intro name
  by_cases hname : name ∈ names
  · exact checkNamed_eq_ok.1 hnamed name hname
  · rw [checkField_congr (hframe name hname)]
    exact hold name

end Schema

end DocStore
