import DocStore.Proofs.Json.Reader
import DocStore.Proofs.Number.Rounding
import DocStore.Proofs.Value.Aligned
import DocStore.Proofs.Value.Json

/-!
# Values that equal themselves

NaN equals nothing, and an object with two fields of one name may differ from itself. A text has
neither: what comes from JSON without them is alike itself, `Value.alike_ofJson_self`, and is
`Definite`, which editing keeps. Where names differ, a value equals itself iff no NaN stands in it:
`Value.equal_self_iff`.
-/

set_option autoImplicit false

namespace DocStore

namespace Json

mutual

/-- JSON whose numbers are numbers, none of them being NaN. -/
def Definite : Json → Prop
  | number n => Binary64.isNaN n.toFloat = false
  | array items => DefiniteItems items
  | object fields => DefiniteFields fields
  | _ => True

/-- The same of all items of an array. -/
def DefiniteItems : List Json → Prop
  | [] => True
  | j :: rest => Definite j ∧ DefiniteItems rest

/-- The same of all values of fields. -/
def DefiniteFields : List (String × Json) → Prop
  | [] => True
  | (_, j) :: rest => Definite j ∧ DefiniteFields rest

end

theorem definiteItems_iff {items : List Json} : DefiniteItems items ↔ ∀ j ∈ items, j.Definite := by
  induction items with
  | nil => simp [DefiniteItems]
  | cons j rest ih => rw [DefiniteItems, ih, List.forall_mem_cons]

theorem definiteFields_iff {fields : List (String × Json)} :
    DefiniteFields fields ↔ ∀ e ∈ fields, e.2.Definite := by
  induction fields with
  | nil => simp [DefiniteFields]
  | cons e rest ih => rw [DefiniteFields, ih, List.forall_mem_cons]

/-- JSON without NaN in which no object has two fields of one name. -/
def Proper (j : Json) : Prop := j.Distinct ∧ j.Definite

end Json

namespace Value

theorem alike_ofNumber_self {n : Json.Number} (h : Binary64.isNaN n.toFloat = false) :
    Alike (ofNumber n) (ofNumber n) := by
  unfold ofNumber
  split
  · exact .int _
  · exact .float (Binary64.equal_iff.2 ⟨h, h, rfl⟩)

mutual

/-- **What comes from JSON without NaN and repeated names is alike itself.** -/
theorem alike_ofJson_self : ∀ j : Json, j.Distinct → j.Definite → Alike (ofJson j) (ofJson j)
  | .null, _, _ => .null
  | .bool b, _, _ => .bool b
  | .number _, _, h => alike_ofNumber_self h
  | .string s, _, _ => .string s
  | .array items, hdistinct, h => .array (alikeItems_ofJsonItems_self items hdistinct h)
  | .object fields, hdistinct, h => by
      rcases ofJson_object fields with ⟨t, hdate⟩ | hobject
      · rw [hdate]
        exact .date t
      · rw [hobject]
        refine .object ?_ (alikeFields_ofJsonFields_self fields hdistinct.2 h)
        rw [keys_ofJsonFields]
        exact hdistinct.1

theorem alikeItems_ofJsonItems_self : ∀ items : List Json, Json.DistinctItems items →
    Json.DefiniteItems items → AlikeItems (ofJsonItems items) (ofJsonItems items)
  | [], _, _ => .nil
  | j :: rest, hdistinct, h =>
      .cons (alike_ofJson_self j hdistinct.1 h.1) (alikeItems_ofJsonItems_self rest hdistinct.2 h.2)

theorem alikeFields_ofJsonFields_self : ∀ fields : List (String × Json),
    Json.DistinctFields fields → Json.DefiniteFields fields →
      AlikeFields (ofJsonFields fields) (ofJsonFields fields)
  | [], _, _ => .nil
  | (name, j) :: rest, hdistinct, h =>
      .cons name (alike_ofJson_self j hdistinct.1 h.1)
        (alikeFields_ofJsonFields_self rest hdistinct.2 h.2)

end

/-- Such a value equals itself. -/
theorem equal_ofJson_self {j : Json} (hdistinct : j.Distinct) (h : j.Definite) :
    equal (ofJson j) (ofJson j) = true := (alike_ofJson_self j hdistinct h).equal

/-! ## Definite values -/

/-- A NaN stands in the value, at some depth. -/
def HoldsNaN (v : Value) : Prop := ∃ w, Inside w v ∧ w.IsNaN

/-- Definite values are those without NaN, as far as names differ. -/
theorem definite_iff {v : Value} (h : v.Distinct) : v.Definite ↔ ¬ v.HoldsNaN := by
  have htop (w : Value) (hw : Inside w v) : AtTop DefiniteScalar DistinctNames w ↔ ¬ w.IsNaN := by
    cases w with
    | array items => simp [AtTop, IsNaN]
    | object fields =>
        have hnames : DistinctNames fields := (hw.everywhere h).1
        simp [AtTop, IsNaN, hnames]
    | _ => simp [AtTop, definiteScalar_iff]
  rw [Definite, everywhere_iff_inside, HoldsNaN, not_exists]
  refine forall_congr' fun w => ?_
  rw [not_and]
  exact forall_congr' fun hw => htop w hw

theorem Definite.not_holdsNaN {v : Value} (h : v.Definite) : ¬ v.HoldsNaN :=
  (definite_iff (h.mono fun _ _ => trivial)).1 h

/-- A definite value equals itself. -/
theorem Definite.equal_self {v : Value} (h : v.Definite) : equal v v = true :=
  ((compare_iff_equalAligned v v h).1 (compare_self v)).1

theorem equal_self_of_mem {items : List Value} (h : equalItems items items = true) :
    ∀ v ∈ items, equal v v = true := by
  induction items with
  | nil => exact List.forall_mem_nil _
  | cons v rest ih =>
      rw [equalItems, Bool.and_eq_true] at h
      exact List.forall_mem_cons.2 ⟨h.1, ih h.2⟩

/-- A value that equals itself is made of such values. -/
theorem Inside.equal_self {v w : Value} (h : Inside w v) (hv : v.Distinct)
    (hequal : equal v v = true) : equal w w = true := by
  induction h with
  | here => exact hequal
  | @item items u hmem _ ih =>
      rw [equal] at hequal
      exact ih (everywhereItems_iff.1 hv u hmem) (equal_self_of_mem hequal u hmem)
  | @field fields e hmem _ ih =>
      refine ih (everywhereFields_iff.1 hv.2 e hmem) ?_
      rw [equal, Bool.and_eq_true] at hequal
      obtain ⟨u, hu, hequal⟩ := equalFields_iff.1 hequal.2 e hmem
      rw [Fields.get?_of_mem hv.1 hmem] at hu
      cases hu
      exact hequal

/-- **A value equals itself** iff no NaN stands in it. -/
theorem equal_self_iff {v : Value} (h : v.Distinct) : equal v v = true ↔ ¬ v.HoldsNaN := by
  constructor
  · rintro hequal ⟨w, hw, f, rfl, hnan⟩
    have hself : Binary64.equal f f = true := hw.equal_self h hequal
    rw [(Binary64.equal_iff.1 hself).1] at hnan
    cases hnan
  · exact fun hnan => ((definite_iff h).2 hnan).equal_self

theorem lasting_definite : Lasting DefiniteScalar DistinctNames :=
  { editable_distinct with
    null := trivial
    int := fun _ => trivial
    float := fun _ hf => Binary64.isNaN_eq_false_of_isFinite hf }

/-- **What comes from proper JSON is definite.** -/
theorem conveys_definite : Conveys Json.Proper DefiniteScalar DistinctNames where
  items h j hj := ⟨Json.distinctItems_iff.1 h.1 j hj, Json.definiteItems_iff.1 h.2 j hj⟩
  fields h e he := ⟨Json.distinctFields_iff.1 h.1.2 e he, Json.definiteFields_iff.1 h.2 e he⟩
  top {j} h := by
    cases j with
    | number n =>
        rw [ofJson, ofNumber]
        split
        · trivial
        · exact h.2
    | object fields =>
        rw [ofJson]
        split
        · trivial
        · show (Fields.keys (ofJsonFields fields)).Nodup
          rw [keys_ofJsonFields]
          exact h.1.1
    | _ => trivial

end Value

end DocStore
