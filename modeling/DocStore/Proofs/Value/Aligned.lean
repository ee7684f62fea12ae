import Mathlib.Data.List.Perm.Subperm
import DocStore.Expr.Eval
import DocStore.Filter.Condition
import DocStore.Proofs.Except
import DocStore.Proofs.Value.Alike
import DocStore.Proofs.Value.Order
import DocStore.Proofs.Value.Regular

/-!
# Values in one place of the order

Equality does not see the order of the fields of objects, but the order of values does: it goes
through the fields of two objects one by one. So two values stand in one place of the order iff
they are equal and `aligned`, the same names standing in the same order at every depth:
`Value.compare_eq_iff_equal`. The operator `$eq` of expressions goes by the order.
-/

set_option autoImplicit false

namespace DocStore

namespace Value

/-! ## Equality both ways -/

theorem equal_symm_of_scalar {a b : Value} (ha : a.isContainer = false)
    (h : equal a b = true) : equal b a = true := by
  cases a <;> cases b <;> simp_all [equal, equalNumbers, isContainer, Binary64.equal_symm]

mutual

/-- **Equality is symmetric** where no object has two fields of one name. -/
theorem equal_symm : ∀ {a b : Value}, Distinct a → Distinct b → equal a b = true →
    equal b a = true
  | .array as, b, ha, hb, h => by
      cases b with
      | array bs => exact equalItems_symm ha hb h
      | _ => cases h
  | .object as, b, ha, hb, h => by
      cases b with
      | object bs =>
          rw [equal, Bool.and_eq_true, beq_iff_eq, equalFields_iff] at h ⊢
          obtain ⟨hlength, hequal⟩ := h
          refine ⟨hlength.symm, fun f hf => ?_⟩
          -- As there are as many names, those of the one object are those of the other.
          have hsub : Fields.keys as ⊆ Fields.keys bs := by
            intro name hname
            obtain ⟨e, he, rfl⟩ := List.mem_map.1 hname
            obtain ⟨w, hw, -⟩ := hequal e he
            exact List.mem_map.2 ⟨(e.1, w), Fields.mem_of_get? hw, rfl⟩
          have hperm : (Fields.keys as).Perm (Fields.keys bs) :=
            (List.subperm_of_subset ha.1 hsub).perm_of_length_le (by simp [Fields.keys, hlength])
          obtain ⟨e, he, hname⟩ := List.mem_map.1 (hperm.mem_iff.2 (Fields.mem_keys hf))
          obtain ⟨w, hw, hvalue⟩ := hequal e he
          have hfound : Fields.get? bs e.1 = some f.2 := hname ▸ Fields.get?_of_mem hb.1 hf
          obtain rfl : f.2 = w := Option.some.inj (hfound.symm.trans hw)
          exact ⟨e.2, hname ▸ Fields.get?_of_mem ha.1 he,
            equal_symm_of_mem ha.2 e he (everywhereFields_iff.1 hb.2 f hf) hvalue⟩
      | _ => cases h
  | .null, _, _, _, h => equal_symm_of_scalar rfl h
  | .bool _, _, _, _, h => equal_symm_of_scalar rfl h
  | .int _, _, _, _, h => equal_symm_of_scalar rfl h
  | .float _, _, _, _, h => equal_symm_of_scalar rfl h
  | .string _, _, _, _, h => equal_symm_of_scalar rfl h
  | .date _, _, _, _, h => equal_symm_of_scalar rfl h

theorem equalItems_symm : ∀ {as bs : List Value},
    EverywhereItems (fun _ => True) DistinctNames as →
      EverywhereItems (fun _ => True) DistinctNames bs → equalItems as bs = true →
        equalItems bs as = true
  | [], [], _, _, _ => rfl
  | a :: as, b :: bs, ha, hb, h => by
      rw [equalItems, Bool.and_eq_true] at h ⊢
      exact ⟨equal_symm ha.1 hb.1 h.1, equalItems_symm ha.2 hb.2 h.2⟩

theorem equal_symm_of_mem : ∀ {as : List (String × Value)},
    EverywhereFields (fun _ => True) DistinctNames as → ∀ e ∈ as, ∀ {w : Value}, Distinct w →
      equal e.2 w = true → equal w e.2 = true
  | (k, v) :: rest, ha, e, he, w, hw, h => by
      rcases List.mem_cons.1 he with rfl | he
      · exact equal_symm ha.1 hw h
      · exact equal_symm_of_mem ha.2 e he hw h

end

/-! ## Aligned values -/

mutual

/-- Whether objects in the same places have the same names in the same order. -/
def aligned : Value → Value → Bool
  | array as, array bs => alignedItems as bs
  | object as, object bs => alignedFields as bs
  | _, _ => true

/-- Whether the items of arrays are aligned, as far as both go. -/
def alignedItems : List Value → List Value → Bool
  | a :: as, b :: bs => aligned a b && alignedItems as bs
  | _, _ => true

/-- Whether fields have the same names and aligned values, as far as both go. -/
def alignedFields : List (String × Value) → List (String × Value) → Bool
  | (k, v) :: as, (l, w) :: bs => k == l && aligned v w && alignedFields as bs
  | _, _ => true

end

/-- Values that are equal and aligned. -/
def EqualAligned (a b : Value) : Prop := equal a b = true ∧ aligned a b = true

theorem equalAligned_array_iff {as bs : List Value} :
    EqualAligned (array as) (array bs) ↔ List.Forall₂ EqualAligned as bs := by
  rw [EqualAligned, equal, aligned]
  induction as generalizing bs with
  | nil => cases bs <;> simp [equalItems, alignedItems]
  | cons a as ih =>
      cases bs with
      | nil => simp [equalItems]
      | cons b bs =>
          rw [List.forall₂_cons, ← ih, EqualAligned, equalItems, alignedItems]
          simp only [Bool.and_eq_true]
          tauto

theorem alignedFields_iff {as bs : List (String × Value)} (hlength : as.length = bs.length) :
    alignedFields as bs = true ↔ Fields.Related (fun _ v w => aligned v w = true) as bs := by
  induction as generalizing bs with
  | nil =>
      cases bs with
      | nil => simp [alignedFields, Fields.Related]
      | cons f bs => cases hlength
  | cons e as ih =>
      cases bs with
      | nil => cases hlength
      | cons f bs =>
          rw [Fields.related_cons, ← ih (Nat.succ.inj hlength), alignedFields]
          simp only [Bool.and_eq_true, beq_iff_eq]

/-- Objects are equal and aligned iff their fields are, one by one. -/
theorem equalAligned_object_iff {as bs : List (String × Value)} (hnames : DistinctNames as) :
    EqualAligned (object as) (object bs) ↔ Fields.Related (fun _ => EqualAligned) as bs := by
  rw [EqualAligned, equal, aligned, Bool.and_eq_true, beq_iff_eq, equalFields_iff]
  constructor
  · rintro ⟨⟨hlength, hequal⟩, haligned⟩
    have hrelated := (alignedFields_iff hlength).1 haligned
    refine List.forall₂_iff_get.2 ⟨hlength, fun i hi hi' => ?_⟩
    obtain ⟨hname, halign⟩ := (List.forall₂_iff_get.1 hrelated).2 i hi hi'
    obtain ⟨w, hw, hvalue⟩ := hequal _ (List.get_mem as ⟨i, hi⟩)
    -- The field found by name is the one in the same place, as names are distinct.
    have hfound : Fields.get? bs (bs.get ⟨i, hi'⟩).1 = some (bs.get ⟨i, hi'⟩).2 :=
      Fields.get?_of_mem (hrelated.keys_eq ▸ hnames) (List.get_mem bs ⟨i, hi'⟩)
    rw [hname, hfound, Option.some.injEq] at hw
    exact ⟨hname, hw ▸ hvalue, halign⟩
  · intro h
    have hlength : as.length = bs.length := List.Forall₂.length_eq h
    refine ⟨⟨hlength, fun e he => ?_⟩, (alignedFields_iff hlength).2 (h.mono fun _ _ _ h => h.2)⟩
    have hrel := h.get? e.1
    rw [Fields.get?_of_mem hnames he] at hrel
    cases hw : Fields.get? bs e.1 with
    | none =>
        rw [hw] at hrel
        cases hrel
    | some w =>
        rw [hw] at hrel
        cases hrel with
        | some h => exact ⟨w, rfl, h.1⟩

/-! ## One place of the order -/

/-- The double that is no number. -/
def IsNaN (v : Value) : Prop := ∃ f, v = float f ∧ Binary64.isNaN f = true

/-- What is asked of scalars: a double is a number. -/
def DefiniteScalar : Value → Prop
  | float f => Binary64.isNaN f = false
  | _ => True

theorem definiteScalar_iff {v : Value} : DefiniteScalar v ↔ ¬ v.IsNaN := by
  cases v <;> simp [DefiniteScalar, IsNaN]

/-- A value without NaN, with different names in each object. -/
def Definite : Value → Prop := Everywhere DefiniteScalar DistinctNames

end Value

namespace Binary64

/-- Beside a double that is a number, the order and equality agree. -/
theorem compareTotal_eq_iff {f g : Float} (hf : isNaN f = false) :
    compareTotal f g = .eq ↔ equal f g = true := by
  rw [equal_iff, compareTotal, hf]
  cases hg : isNaN g <;> simp

end Binary64

namespace Instant

theorem compare_eq_iff {s t : Instant} : compare s t = .eq ↔ s = t := by
  rw [compare, Ordering.then_eq_eq, compare_eq_iff_eq, compare_eq_iff_eq, Instant.mk.injEq]

end Instant

namespace Value

/-- **Scalars in one place are equal.** -/
theorem compare_scalar_iff {a b : Value} (hscalar : a.isContainer = false)
    (ha : DefiniteScalar a) : compare a b = .eq ↔ EqualAligned a b := by
  rw [compare_eq, Ordering.then_eq_eq]
  cases a <;> cases b
  case array.array | object.object => cases hscalar
  case int.int m n =>
    simp [EqualAligned, aligned, equal, equalNumbers, compareRanked, compareNumbers, compareInts,
      rank, Int64.toInt_inj]
  case int.float n f =>
    simp [EqualAligned, aligned, equal, equalNumbers, compareRanked, compareNumbers, rank,
      Binary64.compareTotal_eq_iff (Binary64.isNaN_ofInt64 n)]
  case float.int f n =>
    simp [EqualAligned, aligned, equal, equalNumbers, compareRanked, compareNumbers, rank,
      Binary64.compareTotal_eq_iff ha]
  case float.float f g =>
    simp [EqualAligned, aligned, equal, equalNumbers, compareRanked, compareNumbers, rank,
      Binary64.compareTotal_eq_iff ha]
  case date.date s t =>
    simp [EqualAligned, aligned, equal, compareRanked, rank, Instant.compare_eq_iff]
  -- Other values of one class are compared by the order of their contents; classes differ in rank.
  all_goals simp [EqualAligned, aligned, equal, equalNumbers, compareRanked, compareNumbers, rank]

mutual

/-- **Values are in one place of the order iff they are equal and aligned.** -/
theorem compare_iff_equalAligned : (a b : Value) → Definite a →
    (compare a b = .eq ↔ EqualAligned a b)
  | array as, b, ha => by
    cases b with
    | array bs =>
        rw [compare, equalAligned_array_iff]
        exact compareItems_iff as bs ha
    | _ => simp [compare_eq, EqualAligned, equal, equalNumbers, rank]
  | object as, b, ha => by
    cases b with
    | object bs =>
        rw [compare, equalAligned_object_iff ha.1]
        exact compareFields_iff as bs ha.2
    | _ => simp [compare_eq, EqualAligned, equal, equalNumbers, rank]
  | null, b, ha => compare_scalar_iff rfl ha
  | bool _, b, ha => compare_scalar_iff rfl ha
  | int _, b, ha => compare_scalar_iff rfl ha
  | float _, b, ha => compare_scalar_iff rfl ha
  | string _, b, ha => compare_scalar_iff rfl ha
  | date _, b, ha => compare_scalar_iff rfl ha

theorem compareItems_iff : (as bs : List Value) →
    EverywhereItems DefiniteScalar DistinctNames as →
    (compareItems as bs = .eq ↔ List.Forall₂ EqualAligned as bs)
  | [], [], _ => by simp [compareItems]
  | [], _ :: _, _ => by simp [compareItems]
  | _ :: _, [], _ => by simp [compareItems]
  | a :: as, b :: bs, ha => by
    rw [compareItems, Ordering.then_eq_eq, List.forall₂_cons, compare_iff_equalAligned a b ha.1,
      compareItems_iff as bs ha.2]

theorem compareFields_iff : (as bs : List (String × Value)) →
    EverywhereFields DefiniteScalar DistinctNames as →
    (compareFields as bs = .eq ↔ Fields.Related (fun _ => EqualAligned) as bs)
  | [], [], _ => by simp [compareFields, Fields.Related]
  | [], _ :: _, _ => by simp [compareFields, Fields.Related]
  | _ :: _, [], _ => by simp [compareFields, Fields.Related]
  | (k, v) :: as, (l, w) :: bs, ha => by
    rw [compareFields, Ordering.then_eq_eq, Ordering.then_eq_eq, Fields.related_cons,
      compare_eq_iff_eq, compare_iff_equalAligned v w ha.1, compareFields_iff as bs ha.2]

end

theorem eval_compare_eq {x y : Expr} {doc a b : Value} (hx : x.eval doc = .ok a)
    (hy : y.eval doc = .ok b) :
    (Expr.compare .eq x y).eval doc = .ok (.bool (compare a b).isEq) := by
  obtain ⟨v, hv, ⟨⟩⟩ := bind_eq_ok.1 hx
  obtain ⟨w, hw, ⟨⟩⟩ := bind_eq_ok.1 hy
  rw [Expr.eval, Expr.eval?, hv, hw]
  rfl

/-- **Values are in one place of the order iff they are equal and aligned**, if the first has no NaN
and no name twice. So `$eq` of expressions asks for more than equality, which a filter goes by. -/
theorem compare_eq_iff_equal (a b : Value) (ha : Definite a) :
    (compare a b = .eq ↔ equal a b = true ∧ aligned a b = true) ∧
      (∀ x y doc, Expr.eval x doc = .ok a → Expr.eval y doc = .ok b →
        (Expr.compare .eq x y).eval doc = .ok (.bool (equal a b && aligned a b))) ∧
      (a.array? = none → (Condition.eq b).holds [a] = equal a b) := by
  have hiff : compare a b = .eq ↔ equal a b = true ∧ aligned a b = true :=
    compare_iff_equalAligned a b ha
  refine ⟨hiff, fun x y doc hx hy => ?_, fun harray => ?_⟩
  · have hflag : (compare a b).isEq = (equal a b && aligned a b) := by
      rw [Bool.eq_iff_iff, Ordering.isEq_iff_eq_eq, Bool.and_eq_true, hiff]
    rw [eval_compare_eq hx hy, hflag]
  · simp [Condition.holds, Condition.anyCandidate, Condition.candidates, harray]

theorem compare_eq_iff_equal_rex :
    let rex : Value := object [("name", string "Rex"), ("age", int 3)]
    let also : Value := object [("name", string "Rex"), ("age", float 3.0)]
    Definite rex ∧ compare rex also = .eq ∧
      (Expr.compare .eq (.literal rex) (.literal also)).eval null = .ok (.bool true) ∧
      (Condition.eq also).holds [rex] = true := by
  intro rex also
  have hrex : Definite rex := ⟨by decide, trivial, trivial, trivial⟩
  obtain ⟨hiff, heval, hfilter⟩ := compare_eq_iff_equal rex also hrex
  have hequal : equal rex also = true := by decide +kernel
  have haligned : aligned rex also = true := by decide +kernel
  refine ⟨hrex, hiff.2 ⟨hequal, haligned⟩, ?_, (hfilter rfl).trans hequal⟩
  rw [heval _ _ null rfl rfl, hequal, haligned, Bool.true_and]

/-- Equal objects whose fields stand in another order are not in one place, so that `$eq` denies
what a filter accepts. -/
theorem not_compare_eq_of_reordered :
    let ab : Value := object [("a", int 1), ("b", int 2)]
    let ba : Value := object [("b", int 2), ("a", int 1)]
    Definite ab ∧ Definite ba ∧ equal ab ba = true ∧ compare ab ba = .lt ∧
      (Expr.compare .eq (.literal ab) (.literal ba)).eval null = .ok (.bool false) ∧
      (Condition.eq ba).holds [ab] = true := by
  refine ⟨⟨by decide, trivial, trivial, trivial⟩, ⟨by decide, trivial, trivial, trivial⟩, ?_⟩
  exact ⟨by decide +kernel, by decide +kernel, rfl, by decide +kernel⟩

end Value

end DocStore
