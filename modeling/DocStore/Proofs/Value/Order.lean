import DocStore.Proofs.Number.Rounding
import DocStore.Value.Order

/-!
# The order of values is a preorder

`Value.compare` reads ranks first, then values of one rank, arrays and objects part by part, so it
is built from other orders by `Ordering.then` and `List.compareLex`. Reflexivity and the reversal
hold of all values. Transitivity needs `Separated` leaves: a double that two different integers are
rounded to is equal to both of them, although neither is equal to the other.
-/

set_option autoImplicit false

namespace DocStore

/-! ## Three comparisons -/

/-- The comparisons of a first thing with a second, of the second with a third, and of the first
with the third are those of a preorder. -/
structure Coherent (first second outer : Ordering) : Prop where
  left : first = .eq → outer = second
  right : second = .eq → outer = first
  same : first = second → outer = first

namespace Coherent

variable {o₁ o₂ o₃ p₁ p₂ p₃ : Ordering}

theorem eq : Coherent .eq .eq .eq := ⟨fun _ => rfl, fun _ => rfl, fun _ => rfl⟩

/-- What is not after the second, which is not after the third, is not after the third. -/
theorem ne_gt (h : Coherent o₁ o₂ o₃) (h₁ : o₁ ≠ .gt) (h₂ : o₂ ≠ .gt) : o₃ ≠ .gt := by
  by_cases heq : o₁ = .eq
  · rw [h.left heq]
    exact h₂
  · by_cases heq₂ : o₂ = .eq
    · rw [h.right heq₂]
      exact h₁
    · have hlt : o₁ = .lt := by cases o₁ <;> simp_all
      have hlt₂ : o₂ = .lt := by cases o₂ <;> simp_all
      rw [h.same (hlt.trans hlt₂.symm)]
      exact h₁

/-- **Orders in turn.** The later comparisons count only where the earlier ones tell nothing. -/
protected theorem «then» (h : Coherent o₁ o₂ o₃)
    (hp : o₁ = .eq → o₂ = .eq → Coherent p₁ p₂ p₃) :
    Coherent (o₁.then p₁) (o₂.then p₂) (o₃.then p₃) := by
  obtain ⟨hleft, hright, hsame⟩ := h
  cases o₁ with
  | eq =>
      cases o₂ with
      | eq =>
          rw [hleft rfl]
          exact hp rfl rfl
      | lt | gt =>
          rw [hleft rfl]
          exact ⟨fun _ => rfl, nofun, fun h => h.symm⟩
  | lt | gt =>
      cases o₂ with
      | eq =>
          rw [hright rfl]
          exact ⟨nofun, fun _ => rfl, fun _ => rfl⟩
      | lt | gt =>
          refine ⟨nofun, nofun, fun h => ?_⟩
          rw [hsame h]
          rfl

/-- The comparisons of an order are coherent. -/
theorem of_transCmp {α : Type} (cmp : α → α → Ordering) [Std.TransCmp cmp] (x y z : α) :
    Coherent (cmp x y) (cmp y z) (cmp x z) where
  left h := Std.TransCmp.congr_left h
  right h := (Std.TransCmp.congr_right h).symm
  same h := by
    cases hxy : cmp x y with
    | lt => exact Std.TransCmp.lt_trans hxy (h ▸ hxy)
    | eq => exact Std.TransCmp.eq_trans hxy (h ▸ hxy)
    | gt => exact Std.TransCmp.gt_trans hxy (h ▸ hxy)

/-- **Lists**, compared item by item. -/
theorem compareLex {α : Type} {cmp : α → α → Ordering} {as bs cs : List α}
    (h : ∀ a ∈ as, ∀ b ∈ bs, ∀ c ∈ cs, Coherent (cmp a b) (cmp b c) (cmp a c)) :
    Coherent (as.compareLex cmp bs) (bs.compareLex cmp cs) (as.compareLex cmp cs) := by
  induction as generalizing bs cs with
  | nil =>
      cases bs with
      | nil => exact ⟨fun _ => rfl, fun h => h, fun h => h.symm⟩
      | cons b bs =>
          cases cs with
          | nil => exact ⟨nofun, nofun, nofun⟩
          | cons c cs => exact ⟨nofun, fun _ => rfl, fun _ => rfl⟩
  | cons a as ih =>
      cases bs with
      | nil =>
          cases cs with
          | nil => exact ⟨nofun, fun _ => rfl, nofun⟩
          | cons c cs => exact ⟨nofun, nofun, nofun⟩
      | cons b bs =>
          cases cs with
          | nil => exact ⟨fun _ => rfl, nofun, fun h => h.symm⟩
          | cons c cs =>
              rw [List.compareLex_cons_cons, List.compareLex_cons_cons, List.compareLex_cons_cons]
              refine (h a List.mem_cons_self b List.mem_cons_self c List.mem_cons_self).then
                fun _ _ => ih fun x hx y hy z hz => ?_
              exact h x (List.mem_cons_of_mem a hx) y (List.mem_cons_of_mem b hy) z
                (List.mem_cons_of_mem c hz)

end Coherent

theorem swap_compareLex {α : Type} {cmp : α → α → Ordering} {as bs : List α}
    (h : ∀ a ∈ as, ∀ b, (cmp a b).swap = cmp b a) :
    (as.compareLex cmp bs).swap = bs.compareLex cmp as := by
  induction as generalizing bs with
  | nil => cases bs <;> rfl
  | cons a as ih =>
      cases bs with
      | nil => rfl
      | cons b bs =>
          obtain ⟨ha, has⟩ := List.forall_mem_cons.1 h
          rw [List.compareLex_cons_cons, List.compareLex_cons_cons, Ordering.swap_then, ha, ih has]

namespace Binary64

theorem compareTotal_swap (f g : Float) : (compareTotal f g).swap = compareTotal g f := by
  rw [compareTotal, compareTotal]
  cases isNaN f <;> cases isNaN g
  · exact Std.OrientedOrd.eq_swap.symm
  all_goals rfl

theorem coherent_compareTotal (f g h : Float) :
    Coherent (compareTotal f g) (compareTotal g h) (compareTotal f h) := by
  simp only [compareTotal]
  cases isNaN f <;> cases isNaN g <;> cases isNaN h
  case false.false.false => exact Coherent.of_transCmp (α := Int) Ord.compare _ _ _
  case false.false.true => exact ⟨fun _ => rfl, nofun, fun h => h.symm⟩
  all_goals exact ⟨by simp, by simp, by simp⟩

end Binary64

namespace Instant

theorem compare_swap (s t : Instant) : (compare s t).swap = compare t s := by
  rw [compare, compare, Ordering.swap_then, ← Std.OrientedOrd.eq_swap, ← Std.OrientedOrd.eq_swap]

theorem coherent_compare (s t u : Instant) :
    Coherent (compare s t) (compare t u) (compare s u) :=
  (Coherent.of_transCmp (Ord.compare (α := Int)) _ _ _).then fun _ _ =>
    Coherent.of_transCmp (Ord.compare (α := Nat)) _ _ _

end Instant

namespace Value

/-! ## Values of one rank -/

/-- The order of values of one rank. -/
def compareRanked : Value → Value → Ordering
  | string a, string b => Ord.compare a b
  | bool a, bool b => Ord.compare a b
  | date a, date b => Instant.compare a b
  | array a, array b => compareItems a b
  | object a, object b => compareFields a b
  | a, b => compareNumbers a b

/-- **Rank first**, then the order within the rank. -/
theorem compare_eq (a b : Value) :
    compare a b = (Ord.compare a.rank b.rank).then (compareRanked a b) := by
  cases a <;> cases b <;> rw [compare] <;> first | rfl | (intros; contradiction)

theorem compareItems_eq : ∀ as bs : List Value, compareItems as bs = as.compareLex compare bs
  | [], [] => by rw [compareItems, List.compareLex_nil_nil]
  | [], _ :: _ => by rw [compareItems, List.compareLex_nil_cons]
  | _ :: _, [] => by rw [compareItems, List.compareLex_cons_nil]
  | a :: as, b :: bs => by rw [compareItems, List.compareLex_cons_cons, compareItems_eq as bs]

/-- The order of fields: by name, then by value. -/
def compareEntries (e f : String × Value) : Ordering :=
  (Ord.compare e.1 f.1).then (compare e.2 f.2)

theorem compareFields_eq : ∀ as bs : List (String × Value),
    compareFields as bs = as.compareLex compareEntries bs
  | [], [] => by rw [compareFields, List.compareLex_nil_nil]
  | [], _ :: _ => by rw [compareFields, List.compareLex_nil_cons]
  | _ :: _, [] => by rw [compareFields, List.compareLex_cons_nil]
  | (k, v) :: as, (l, w) :: bs => by
    rw [compareFields, List.compareLex_cons_cons, compareFields_eq as bs, compareEntries]

/-! ## Reversal -/

theorem compareNumbers_swap (a b : Value) : (compareNumbers a b).swap = compareNumbers b a := by
  cases a <;> cases b
  case int.int m n => exact Std.OrientedOrd.eq_swap.symm
  case int.float | float.int | float.float => exact Binary64.compareTotal_swap _ _
  all_goals rfl

theorem compare_swap_of_ranked {a b : Value} (h : (compareRanked a b).swap = compareRanked b a) :
    (compare a b).swap = compare b a := by
  rw [compare_eq, compare_eq b, Ordering.swap_then, h, ← Std.OrientedOrd.eq_swap]

mutual

theorem compareRanked_swap : (a b : Value) → (compareRanked a b).swap = compareRanked b a
  | array as, b => by
    cases b with
    | array bs =>
        rw [compareRanked, compareRanked, compareItems_eq, compareItems_eq]
        exact swap_compareLex (compare_swap_of_mem as)
    | _ => rfl
  | object as, b => by
    cases b with
    | object bs =>
        rw [compareRanked, compareRanked, compareFields_eq, compareFields_eq]
        exact swap_compareLex (compareEntries_swap_of_mem as)
    | _ => rfl
  | string s, b => by
    cases b with
    | string t => exact Std.OrientedOrd.eq_swap.symm
    | _ => rfl
  | bool s, b => by
    cases b with
    | bool t => exact Std.OrientedOrd.eq_swap.symm
    | _ => rfl
  | date s, b => by
    cases b with
    | date t => exact Instant.compare_swap s t
    | _ => rfl
  | int m, b => by
    cases b with
    | int n => exact compareNumbers_swap (int m) (int n)
    | float g => exact compareNumbers_swap (int m) (float g)
    | _ => rfl
  | float f, b => by
    cases b with
    | int n => exact compareNumbers_swap (float f) (int n)
    | float g => exact compareNumbers_swap (float f) (float g)
    | _ => rfl
  | null, b => by cases b <;> rfl

theorem compare_swap_of_mem : (items : List Value) →
    ∀ a ∈ items, ∀ b, (compare a b).swap = compare b a
  | [] => List.forall_mem_nil _
  | a :: rest => List.forall_mem_cons.2
    ⟨fun b => compare_swap_of_ranked (compareRanked_swap a b), compare_swap_of_mem rest⟩

theorem compareEntries_swap_of_mem : (fields : List (String × Value)) →
    ∀ e ∈ fields, ∀ f, (compareEntries e f).swap = compareEntries f e
  | [] => List.forall_mem_nil _
  | (k, v) :: rest => by
    refine List.forall_mem_cons.2 ⟨fun f => ?_, compareEntries_swap_of_mem rest⟩
    rw [compareEntries, compareEntries, Ordering.swap_then,
      compare_swap_of_ranked (compareRanked_swap v f.2), ← Std.OrientedOrd.eq_swap]

end

/-- **The order turns around with its arguments.** -/
theorem compare_swap (a b : Value) : (compare a b).swap = compare b a :=
  compare_swap_of_ranked (compareRanked_swap a b)

theorem compare_self (a : Value) : compare a a = .eq := by
  have hswap := compare_swap a a
  cases h : compare a a <;> simp [h] at hswap ⊢

/-! ## Leaves -/

mutual

/-- The scalars inside a value. -/
def leaves : Value → List Value
  | array items => itemLeaves items
  | object fields => fieldLeaves fields
  | v => [v]

/-- The scalars inside the items of an array. -/
def itemLeaves : List Value → List Value
  | [] => []
  | v :: rest => leaves v ++ itemLeaves rest

/-- The scalars inside the fields of an object. -/
def fieldLeaves : List (String × Value) → List Value
  | [] => []
  | (_, v) :: rest => leaves v ++ fieldLeaves rest

end

theorem leaves_subset_itemLeaves {v : Value} : ∀ {items : List Value},
    v ∈ items → leaves v ⊆ itemLeaves items
  | w :: rest, h => by
    rw [itemLeaves]
    rcases List.mem_cons.1 h with rfl | h
    · exact List.subset_append_left _ _
    · exact List.subset_append_of_subset_right _ (leaves_subset_itemLeaves h)

theorem leaves_subset_fieldLeaves {e : String × Value} : ∀ {fields : List (String × Value)},
    e ∈ fields → leaves e.2 ⊆ fieldLeaves fields
  | (k, v) :: rest, h => by
    rw [fieldLeaves]
    rcases List.mem_cons.1 h with rfl | h
    · exact List.subset_append_left _ _
    · exact List.subset_append_of_subset_right _ (leaves_subset_fieldLeaves h)

/-- No double among the values is what two different integers among them are rounded to. -/
def Separated (vs : List Value) : Prop :=
  ∀ m n f, int m ∈ vs → int n ∈ vs → float f ∈ vs →
    Binary64.equal (Binary64.ofInt64 m) f = true → Binary64.equal (Binary64.ofInt64 n) f = true →
      m = n

theorem Separated.parts {us vs ws us' vs' ws' : List Value}
    (h : Separated (us' ++ vs' ++ ws')) (hu : us ⊆ us') (hv : vs ⊆ vs') (hw : ws ⊆ ws') :
    Separated (us ++ vs ++ ws) := by
  have hsub : us ++ vs ++ ws ⊆ us' ++ vs' ++ ws' := by
    intro v hmem
    rw [List.mem_append, List.mem_append] at hmem ⊢
    exact hmem.imp (Or.imp (fun h => hu h) fun h => hv h) fun h => hw h
  exact fun m n f hm hn hf => h m n f (hsub hm) (hsub hn) (hsub hf)

/-! ## Numbers -/

/-- The double that stands for a number among doubles. -/
def nearest : Value → Float
  | int n => Binary64.ofInt64 n
  | float f => f
  | _ => Binary64.ofInt64 0

/-- What tells two integers apart that are rounded to one double. -/
def compareRounded : Value → Value → Ordering
  | int a, int b => compareInts a b
  | _, _ => .eq

theorem int_or_float_of_rank {v : Value} (h : v.rank = 1) :
    (∃ n, v = int n) ∨ ∃ f, v = float f := by
  cases v <;> simp [rank] at h ⊢

/-- Integers are compared as doubles first: rounding keeps their order. -/
theorem compareInts_eq (m n : Int64) :
    compareInts m n = (Binary64.compareTotal (Binary64.ofInt64 m) (Binary64.ofInt64 n)).then
      (compareInts m n) := by
  simp only [Binary64.compareTotal, Binary64.isNaN_ofInt64]
  -- Rounding is monotone, so integers of different doubles are in the order of the doubles.
  rcases Int.lt_trichotomy (Binary64.scaled (Binary64.ofInt64 m))
    (Binary64.scaled (Binary64.ofInt64 n)) with hlt | heq | hgt
  · have hmn : m.toInt < n.toInt := by
      by_contra hle
      exact absurd (Binary64.scaled_ofInt64_le (Int.not_lt.1 hle)) (Int.not_le.2 hlt)
    rw [compareInts, compare_lt_iff_lt.2 hmn, compare_lt_iff_lt.2 hlt]
    rfl
  · rw [compare_eq_iff_eq.2 heq]
    rfl
  · have hmn : n.toInt < m.toInt := by
      by_contra hle
      exact absurd (Binary64.scaled_ofInt64_le (Int.not_lt.1 hle)) (Int.not_le.2 hgt)
    rw [compareInts, compare_gt_iff_gt.2 hmn, compare_gt_iff_gt.2 hgt]
    rfl

theorem compareNumbers_eq {a b : Value} (ha : a.rank = 1) (hb : b.rank = 1) :
    compareNumbers a b =
      (Binary64.compareTotal a.nearest b.nearest).then (compareRounded a b) := by
  rcases int_or_float_of_rank ha with ⟨m, rfl⟩ | ⟨f, rfl⟩ <;>
    rcases int_or_float_of_rank hb with ⟨n, rfl⟩ | ⟨g, rfl⟩
  · exact compareInts_eq m n
  all_goals exact Ordering.then_eq.symm

/-- An integer and a double in the same place are equal numbers. -/
theorem equal_of_compareTotal {n : Int64} {f : Float}
    (h : Binary64.compareTotal (Binary64.ofInt64 n) f = .eq) :
    Binary64.equal (Binary64.ofInt64 n) f = true := by
  rw [Binary64.compareTotal, Binary64.isNaN_ofInt64] at h
  rw [Binary64.equal, Binary64.isNaN_ofInt64]
  cases hf : Binary64.isNaN f with
  | true =>
      rw [hf] at h
      cases h
  | false =>
      rw [hf] at h
      simpa using compare_eq_iff_eq.1 h

theorem coherent_compareNumbers {a b c : Value} (ha : a.rank = 1) (hb : b.rank = 1)
    (hc : c.rank = 1) (h : Separated [a, b, c]) :
    Coherent (compareNumbers a b) (compareNumbers b c) (compareNumbers a c) := by
  rw [compareNumbers_eq ha hb, compareNumbers_eq hb hc, compareNumbers_eq ha hc]
  have hdoubles := Binary64.coherent_compareTotal a.nearest b.nearest c.nearest
  -- Only numbers of one double are left: all integers, or at most one of them.
  refine hdoubles.then fun hab hbc => ?_
  have hac := (hdoubles.left hab).trans hbc
  have hba := Binary64.compareTotal_swap a.nearest b.nearest
  have hcb := Binary64.compareTotal_swap b.nearest c.nearest
  have hca := Binary64.compareTotal_swap a.nearest c.nearest
  rw [hab] at hba
  rw [hbc] at hcb
  rw [hac] at hca
  have heq (n : Int64) : compareInts n n = .eq := compare_eq_iff_eq.2 rfl
  rcases int_or_float_of_rank ha with ⟨m, rfl⟩ | ⟨f, rfl⟩ <;>
    rcases int_or_float_of_rank hb with ⟨n, rfl⟩ | ⟨g, rfl⟩ <;>
    rcases int_or_float_of_rank hc with ⟨k, rfl⟩ | ⟨e, rfl⟩
  · exact Coherent.of_transCmp (Ord.compare (α := Int)) _ _ _
  · have hmn : m = n := h m n e (by simp) (by simp) (by simp) (equal_of_compareTotal hac)
      (equal_of_compareTotal hbc)
    simp only [hmn, compareRounded, heq]
    exact Coherent.eq
  · have hmk : m = k := h m k g (by simp) (by simp) (by simp) (equal_of_compareTotal hab)
      (equal_of_compareTotal hcb.symm)
    simp only [hmk, compareRounded, heq]
    exact Coherent.eq
  · exact Coherent.eq
  · have hnk : n = k := h n k f (by simp) (by simp) (by simp) (equal_of_compareTotal hba.symm)
      (equal_of_compareTotal hca.symm)
    simp only [hnk, compareRounded, heq]
    exact Coherent.eq
  all_goals exact Coherent.eq

theorem compareRanked_eq_numbers {a b : Value} (ha : a.rank = 1) :
    compareRanked a b = compareNumbers a b := by
  rcases int_or_float_of_rank ha with ⟨m, rfl⟩ | ⟨f, rfl⟩ <;> cases b <;> rfl

theorem leaves_of_rank {v : Value} (h : v.rank = 1) : leaves v = [v] := by
  rcases int_or_float_of_rank h with ⟨n, rfl⟩ | ⟨f, rfl⟩ <;> rfl

/-- The numbers among the values of one rank. -/
theorem coherent_compareRanked_numbers {a b c : Value} (ha : a.rank = 1) (hb : b.rank = 1)
    (hc : c.rank = 1) (h : Separated (leaves a ++ leaves b ++ leaves c)) :
    Coherent (compareRanked a b) (compareRanked b c) (compareRanked a c) := by
  rw [leaves_of_rank ha, leaves_of_rank hb, leaves_of_rank hc] at h
  rw [compareRanked_eq_numbers ha, compareRanked_eq_numbers hb, compareRanked_eq_numbers ha]
  exact coherent_compareNumbers ha hb hc h

/-! ## Transitivity -/

theorem coherent_of_ranked {a b c : Value}
    (h : a.rank = b.rank → b.rank = c.rank →
      Coherent (compareRanked a b) (compareRanked b c) (compareRanked a c)) :
    Coherent (compare a b) (compare b c) (compare a c) := by
  rw [compare_eq, compare_eq b, compare_eq a c]
  refine (Coherent.of_transCmp (Ord.compare (α := Nat)) _ _ _).then fun hab hbc => ?_
  exact h (compare_eq_iff_eq.1 hab) (compare_eq_iff_eq.1 hbc)

mutual

theorem coherent_compareRanked : (a b c : Value) → a.rank = b.rank → b.rank = c.rank →
    Separated (leaves a ++ leaves b ++ leaves c) →
    Coherent (compareRanked a b) (compareRanked b c) (compareRanked a c)
  | array as, b, c, hab, hbc, h => by
    cases b with
    | array bs =>
        cases c with
        | array cs =>
            rw [compareRanked, compareRanked, compareRanked, compareItems_eq, compareItems_eq,
              compareItems_eq]
            refine Coherent.compareLex fun a ha b hb c hc => ?_
            exact coherent_compare_of_mem as a ha b c (h.parts (leaves_subset_itemLeaves ha)
              (leaves_subset_itemLeaves hb) (leaves_subset_itemLeaves hc))
        | _ => simp [rank] at hbc
    | _ => simp [rank] at hab
  | object as, b, c, hab, hbc, h => by
    cases b with
    | object bs =>
        cases c with
        | object cs =>
            rw [compareRanked, compareRanked, compareRanked, compareFields_eq, compareFields_eq,
              compareFields_eq]
            refine Coherent.compareLex fun e he f hf g hg => ?_
            exact coherent_compareEntries_of_mem as e he f g (h.parts (leaves_subset_fieldLeaves he)
              (leaves_subset_fieldLeaves hf) (leaves_subset_fieldLeaves hg))
        | _ => simp [rank] at hbc
    | _ => simp [rank] at hab
  | string s, b, c, hab, hbc, _ => by
    cases b with
    | string t =>
        cases c with
        | string u => exact Coherent.of_transCmp Ord.compare s t u
        | _ => simp [rank] at hbc
    | _ => simp [rank] at hab
  | bool s, b, c, hab, hbc, _ => by
    cases b with
    | bool t =>
        cases c with
        | bool u => exact Coherent.of_transCmp Ord.compare s t u
        | _ => simp [rank] at hbc
    | _ => simp [rank] at hab
  | date s, b, c, hab, hbc, _ => by
    cases b with
    | date t =>
        cases c with
        | date u => exact Instant.coherent_compare s t u
        | _ => simp [rank] at hbc
    | _ => simp [rank] at hab
  | null, b, c, hab, hbc, _ => by
    cases b with
    | null =>
        cases c with
        | null => exact Coherent.eq
        | _ => simp [rank] at hbc
    | _ => simp [rank] at hab
  | int _, _, _, hab, hbc, h =>
    coherent_compareRanked_numbers rfl hab.symm (hbc.symm.trans hab.symm) h
  | float _, _, _, hab, hbc, h =>
    coherent_compareRanked_numbers rfl hab.symm (hbc.symm.trans hab.symm) h

theorem coherent_compare_of_mem : (items : List Value) → ∀ a ∈ items, ∀ b c,
    Separated (leaves a ++ leaves b ++ leaves c) →
    Coherent (compare a b) (compare b c) (compare a c)
  | [] => List.forall_mem_nil _
  | a :: rest => by
    refine List.forall_mem_cons.2 ⟨fun b c h => ?_, coherent_compare_of_mem rest⟩
    exact coherent_of_ranked fun hab hbc => coherent_compareRanked a b c hab hbc h

theorem coherent_compareEntries_of_mem : (fields : List (String × Value)) →
    ∀ e ∈ fields, ∀ f g, Separated (leaves e.2 ++ leaves f.2 ++ leaves g.2) →
    Coherent (compareEntries e f) (compareEntries f g) (compareEntries e g)
  | [] => List.forall_mem_nil _
  | (k, v) :: rest => by
    refine List.forall_mem_cons.2 ⟨fun f g h => ?_, coherent_compareEntries_of_mem rest⟩
    refine (Coherent.of_transCmp Ord.compare k f.1 g.1).then fun _ _ => ?_
    exact coherent_of_ranked fun hvf hfg => coherent_compareRanked v f.2 g.2 hvf hfg h

end

/-- **A total preorder**: every value stands beside itself, two values turned around are in the
opposite order, and the order is transitive among values with separated leaves. -/
theorem compare_preorder (a b c : Value) :
    compare a a = .eq ∧ compare b a = (compare a b).swap ∧
      (Separated (leaves a ++ leaves b ++ leaves c) →
        compare a b ≠ .gt → compare b c ≠ .gt → compare a c ≠ .gt) := by
  refine ⟨compare_self a, (compare_swap a b).symm, fun h hab hbc => ?_⟩
  exact (coherent_of_ranked fun hrank hrank' =>
    coherent_compareRanked a b c hrank hrank' h).ne_gt hab hbc

theorem compare_preorder_prices :
    Separated (leaves (object [("price", int 1)]) ++ leaves (object [("price", float 1.5)]) ++
        leaves (object [("price", int 2)])) ∧
      compare (object [("price", int 1)]) (object [("price", float 1.5)]) ≠ .gt ∧
      compare (object [("price", float 1.5)]) (object [("price", int 2)]) ≠ .gt ∧
      compare (object [("price", int 1)]) (object [("price", int 2)]) ≠ .gt := by
  have hsep : Separated (leaves (object [("price", int 1)]) ++
      leaves (object [("price", float 1.5)]) ++ leaves (object [("price", int 2)])) := by
    intro m n f hm hn hf hmf _
    simp only [leaves, fieldLeaves, List.append_nil, List.cons_append, List.nil_append,
      List.mem_cons, int.injEq, float.injEq, reduceCtorEq, List.not_mem_nil, or_false,
      false_or] at hm hn hf
    subst hf
    rcases hm with rfl | rfl
    · exact absurd hmf (by decide +kernel)
    · exact absurd hmf (by decide +kernel)
  have hab : compare (object [("price", int 1)]) (object [("price", float 1.5)]) ≠ .gt := by
    decide +kernel
  have hbc : compare (object [("price", float 1.5)]) (object [("price", int 2)]) ≠ .gt := by
    decide +kernel
  exact ⟨hsep, hab, hbc, (compare_preorder _ _ _).2.2 hsep hab hbc⟩

/-- Integers beside the double that both are rounded to break transitivity. -/
theorem not_compare_transitive :
    compare (int 9007199254740993) (float 9007199254740992.0) ≠ .gt ∧
      compare (float 9007199254740992.0) (int 9007199254740992) ≠ .gt ∧
      compare (int 9007199254740993) (int 9007199254740992) = .gt := by
  decide +kernel

end Value

end DocStore
