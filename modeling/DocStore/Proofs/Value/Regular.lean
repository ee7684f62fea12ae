import DocStore.Proofs.Calendar.Rfc3339
import DocStore.Proofs.Json.Reader
import DocStore.Proofs.Value.Edit
import DocStore.Proofs.Value.Json

/-!
# Regular values

Values that come from JSON in which no object has two fields of one name are `Regular`: the fields
of their objects have different names, and their dates are regular instants. Editing keeps this.
-/

set_option autoImplicit false

namespace DocStore.Value

/-- What is asked of scalars. -/
def RegularScalar : Value → Prop
  | date t => t.Regular
  | _ => True

/-- What is asked of objects. -/
def DistinctNames (fields : List (String × Value)) : Prop := (Fields.keys fields).Nodup

instance (fields : List (String × Value)) : Decidable (DistinctNames fields) :=
  inferInstanceAs (Decidable (Fields.keys fields).Nodup)

/-- A value with different names in each object. -/
def Distinct : Value → Prop := Everywhere (fun _ => True) DistinctNames

/-- A value with different names in each object, and regular instants. -/
def Regular : Value → Prop := Everywhere RegularScalar DistinctNames

/-- The same of the items of an array. -/
def RegularItems : List Value → Prop := EverywhereItems RegularScalar DistinctNames

/-- The same of the values of fields. -/
def RegularFields : List (String × Value) → Prop := EverywhereFields RegularScalar DistinctNames

theorem Regular.distinct {v : Value} (h : Regular v) : Distinct v := h.mono fun _ _ => trivial

theorem editable_distinct : Editable (fun _ => True) DistinctNames where
  null := trivial
  empty := List.nodup_nil
  insert name v h := Fields.nodup_keys_insert h name v
  erase name h := Fields.nodup_keys_erase h name

theorem lasting_distinct : Lasting (fun _ => True) DistinctNames :=
  { editable_distinct with
    int := fun _ => trivial
    float := fun _ _ => trivial }

theorem lasting_regular : Lasting RegularScalar DistinctNames :=
  { editable_distinct with
    null := trivial
    int := fun _ => trivial
    float := fun _ _ => trivial }

theorem regular_instant? {j : Json} {t : Instant} (h : instant? j = some t) : t.Regular := by
  cases j with
  | string s => exact Rfc3339.regular_of_parse? h
  | number n =>
      obtain ⟨ms, -, h⟩ := Option.bind_eq_some_iff.1 h
      exact Instant.regular_ofMillis? h
  | _ => cases h

theorem regular_wrappedDate? {fields : Fields Json} {t : Instant}
    (h : wrappedDate? fields = some t) : t.Regular := by
  unfold wrappedDate? at h
  split at h
  · exact regular_instant? (Option.ite_none_right_eq_some.1 h).2
  · cases h

theorem conveys_regular : Conveys Json.Distinct RegularScalar DistinctNames where
  items h := Json.distinctItems_iff.1 h
  fields h := Json.distinctFields_iff.1 h.2
  top {j} h := by
    cases j with
    | number n =>
        rw [ofJson, ofNumber]
        split <;> trivial
    | object fields =>
        rw [ofJson]
        split
        · rename_i ht
          exact regular_wrappedDate? ht
        · change (Fields.keys (ofJsonFields fields)).Nodup
          rw [keys_ofJsonFields]
          exact h.1
    | _ => trivial

theorem conveys_distinct : Conveys Json.Distinct (fun _ => True) DistinctNames :=
  { conveys_regular with
    top := fun {j} h => by
      have hregular := conveys_regular.top h
      cases hv : ofJson j with
      | object fields => rwa [hv] at hregular
      | _ => trivial }

/-- **What comes from JSON is regular.** -/
theorem regular_ofJson (j : Json) (h : j.Distinct) : Regular (ofJson j) :=
  conveys_regular.value j h

end DocStore.Value
