import Mathlib.Algebra.Ring.Int.Defs
import Mathlib.Data.List.Induction
import DocStore.Accumulator
import DocStore.Proofs.Update.Change

/-!
# Integers are exact

Sums, differences and products of numbers are `Faithful`: an integer is the exact result of
integers, and it is one as long as no partial result leaves the range of machine integers; every
other result of numbers is a double, which never becomes an integer again. This holds of the
operators of expressions, of the accumulator of sums and of increments: `faithful_arithmetic`.
-/

set_option autoImplicit false

namespace DocStore

namespace Checked

/-- Whether an integer is a machine integer. -/
def Fits (n : Int) : Prop := Int64.minValue.toInt ≤ n ∧ n ≤ Int64.maxValue.toInt

instance (n : Int) : Decidable (Fits n) := inferInstanceAs (Decidable (_ ∧ _))

theorem fits_toInt (n : Int64) : Fits n.toInt := ⟨n.le_toInt, Int.le_of_lt_add_one n.toInt_lt⟩

theorem ofInt?_eq_some_iff {n : Int} {k : Int64} : ofInt? n = some k ↔ k.toInt = n := by
  refine ⟨toInt_of_ofInt?, ?_⟩
  rintro rfl
  exact ofInt?_toInt k

theorem Fits.exists_toInt {n : Int} (h : Fits n) : ∃ k : Int64, k.toInt = n :=
  ⟨Int64.ofInt n, toInt_of_ofInt? (if_pos h)⟩

end Checked

namespace Arithmetic

open Checked (Fits)

/-! ## Exact results -/

/-- The result on two integers. -/
def onIntegers : Arithmetic → Int → Int → Int
  | add, a, b => a + b
  | subtract, a, b => a - b
  | multiply, a, b => a * b

/-- The result on integers: their sum, their product, or the first without the others. -/
def exact : Arithmetic → List Int → Int
  | add, ns => ns.sum
  | multiply, ns => ns.prod
  | subtract, [] => 0
  | subtract, n :: ns => n - ns.sum

/-- The results on all first parts of a list of integers are machine integers. -/
def Fit (op : Arithmetic) (ns : List Int64) : Prop :=
  ∀ k ≤ ns.length, Fits (op.exact ((ns.take k).map (·.toInt)))

instance (op : Arithmetic) (ns : List Int64) : Decidable (op.Fit ns) :=
  inferInstanceAs (Decidable (∀ k ≤ ns.length, _))

/-- **A result that was neither wrapped nor rounded.** It is an integer just if the operands are
integers that fit, and then the exact one; if the operands are numbers it is otherwise a double. -/
structure Faithful (op : Arithmetic) (operands : List Value) (result : Result Value) : Prop where
  integer : ∀ n, result = .ok (.int n) ↔ ∃ ns : List Int64,
    operands = ns.map .int ∧ op.Fit ns ∧ n.toInt = op.exact (ns.map (·.toInt))
  double : (∀ v ∈ operands, v.isNumber = true) → (∀ n, result ≠ .ok (.int n)) →
    ∃ f, result = .ok (.float f)

variable {op : Arithmetic}

theorem onInts?_eq (op : Arithmetic) (a b : Int64) :
    op.onInts? a b = Checked.ofInt? (op.onIntegers a.toInt b.toInt) := by
  cases op <;> rfl

theorem exact_pair (op : Arithmetic) (a b : Int) : op.exact [a, b] = op.onIntegers a b := by
  cases op <;> simp [exact, onIntegers]

theorem fits_exact_nil (op : Arithmetic) : Fits (op.exact []) := by
  cases op <;> exact ⟨by decide, by decide⟩

theorem exact_singleton (op : Arithmetic) (a : Int) : op.exact [a] = a := by
  cases op <;> simp [exact]

/-- Sums and products grow at the end of the list. -/
theorem exact_concat (hop : op ≠ .subtract) (ns : List Int) (n : Int) :
    op.exact (ns ++ [n]) = op.onIntegers (op.exact ns) n := by
  cases op with
  | add => simp [exact, onIntegers]
  | subtract => exact absurd rfl hop
  | multiply => simp [exact, onIntegers]

theorem fit_nil (op : Arithmetic) : op.Fit [] := by
  intro k _
  rw [List.take_nil]
  exact op.fits_exact_nil

/-- The result on all integers is a machine integer. -/
theorem Fit.total {ns : List Int64} (h : op.Fit ns) : Fits (op.exact (ns.map (·.toInt))) := by
  have hfits := h ns.length (Nat.le_refl _)
  rwa [List.take_length] at hfits

/-- The result on a first part is a machine integer. -/
theorem Fit.left {ms ns : List Int64} (h : op.Fit (ms ++ ns)) :
    Fits (op.exact (ms.map (·.toInt))) := by
  have hfits := h ms.length (by rw [List.length_append]; omega)
  rwa [List.take_left] at hfits

theorem fit_concat {ns : List Int64} {n : Int64} :
    op.Fit (ns ++ [n]) ↔ op.Fit ns ∧ Fits (op.exact ((ns ++ [n]).map (·.toInt))) := by
  constructor
  · intro h
    refine ⟨fun k hk => ?_, h.total⟩
    have hfits := h k (by rw [List.length_append]; omega)
    rwa [List.take_append_of_le_length hk] at hfits
  · rintro ⟨hns, hall⟩ k hk
    by_cases hle : k ≤ ns.length
    · rw [List.take_append_of_le_length hle]
      exact hns k hle
    · rw [List.length_append, List.length_singleton] at hk
      rw [List.take_of_length_le (by rw [List.length_append, List.length_singleton]; omega)]
      exact hall

theorem fit_singleton (op : Arithmetic) (n : Int64) : op.Fit [n] := by
  refine fit_concat.2 ⟨op.fit_nil, ?_⟩
  rw [List.nil_append, List.map_singleton, exact_singleton]
  exact Checked.fits_toInt n

/-! ## Two operands -/

/-- **One step.** The result on two values is an integer just if they are integers and their exact
result is a machine integer. -/
theorem apply_eq_int_iff {x y : Value} {n : Int64} : op.apply x y = .int n ↔
    ∃ a b, x = .int a ∧ y = .int b ∧ n.toInt = op.onIntegers a.toInt b.toInt := by
  unfold apply
  split
  · rename_i a b
    rw [onInts?_eq]
    constructor
    · intro h
      split at h
      · rename_i k hk
        cases h
        exact ⟨a, b, rfl, rfl, Checked.ofInt?_eq_some_iff.1 hk⟩
      · cases h
    · rintro ⟨_, _, ⟨⟩, ⟨⟩, h⟩
      rw [Checked.ofInt?_eq_some_iff.2 h]
  · rename_i hints
    constructor
    · intro h
      cases h
    · rintro ⟨a, b, rfl, rfl, -⟩
      exact absurd rfl (hints a b rfl)

/-- What is no integer is a double. -/
theorem apply_cases (op : Arithmetic) (x y : Value) :
    (∃ n, op.apply x y = .int n) ∨ ∃ f, op.apply x y = .float f := by
  unfold apply
  split
  · split
    · exact .inl ⟨_, rfl⟩
    · exact .inr ⟨_, rfl⟩
  · exact .inr ⟨_, rfl⟩

theorem faithful_apply (op : Arithmetic) (x y : Value) :
    Faithful op [x, y] (.ok (op.apply x y)) where
  integer n := by
    rw [Except.ok.injEq, apply_eq_int_iff]
    constructor
    · rintro ⟨a, b, rfl, rfl, hn⟩
      rw [← exact_pair] at hn
      have hboth : Fits (op.exact (([a] ++ [b]).map Int64.toInt)) := hn ▸ Checked.fits_toInt n
      exact ⟨[a, b], rfl, fit_concat.2 ⟨op.fit_singleton a, hboth⟩, hn⟩
    · rintro ⟨ns, hns, -, hn⟩
      obtain ⟨a, _, rfl, ha, hrest⟩ := List.map_eq_cons_iff.1 hns.symm
      obtain ⟨b, _, rfl, hb, hend⟩ := List.map_eq_cons_iff.1 hrest
      obtain rfl := List.map_eq_nil_iff.1 hend
      exact ⟨a, b, ha.symm, hb.symm, hn.trans (op.exact_pair _ _)⟩
  double _ hne := by
    obtain ⟨n, hn⟩ | ⟨f, hf⟩ := op.apply_cases x y
    · exact absurd (congrArg Except.ok hn) (hne n)
    · exact ⟨f, congrArg Except.ok hf⟩

theorem faithful_singleton (op : Arithmetic) {v : Value} (hv : v.isNumber = true) :
    Faithful op [v] (.ok v) where
  integer n := by
    constructor
    · rintro ⟨⟩
      exact ⟨[n], rfl, op.fit_singleton n, (op.exact_singleton _).symm⟩
    · rintro ⟨ns, hns, -, hn⟩
      obtain ⟨a, _, rfl, ha, hend⟩ := List.map_eq_cons_iff.1 hns.symm
      obtain rfl := List.map_eq_nil_iff.1 hend
      have hsame : n.toInt = a.toInt := hn.trans (op.exact_singleton _)
      rw [← ha, Int64.toInt_inj.1 hsame]
  double _ hne := by
    cases v with
    | int n => exact absurd rfl (hne n)
    | float f => exact ⟨f, rfl⟩
    | _ => cases hv

/-! ## Lists of operands -/

theorem unit_eq_int_iff (hop : op ≠ .subtract) {n : Int64} :
    op.unit = .int n ↔ n.toInt = op.exact [] := by
  cases op with
  | add => simp [unit, exact, eq_comm, ← Int64.toInt_inj]
  | subtract => exact absurd rfl hop
  | multiply => simp [unit, exact, eq_comm, ← Int64.toInt_inj]

/-- **A run.** A double on the way stays one, so the values are integers whose sums or products
up to any of them are machine integers. -/
theorem foldl_apply_eq_int_iff (hop : op ≠ .subtract) {values : List Value} {n : Int64} :
    values.foldl op.apply op.unit = .int n ↔ ∃ ns : List Int64,
      values = ns.map .int ∧ op.Fit ns ∧ n.toInt = op.exact (ns.map (·.toInt)) := by
  induction values using List.reverseRecOn generalizing n with
  | nil =>
      rw [List.foldl_nil, unit_eq_int_iff hop]
      constructor
      · exact fun h => ⟨[], rfl, op.fit_nil, h⟩
      · rintro ⟨ns, hns, -, hn⟩
        obtain rfl := List.map_eq_nil_iff.1 hns.symm
        exact hn
  | append_singleton values v ih =>
      rw [List.foldl_append, List.foldl_cons, List.foldl_nil, apply_eq_int_iff]
      constructor
      · rintro ⟨a, b, hvalues, rfl, hn⟩
        obtain ⟨ns, rfl, hfit, ha⟩ := ih.1 hvalues
        have hexact : n.toInt = op.exact ((ns ++ [b]).map (·.toInt)) := by
          rw [List.map_append, List.map_singleton, exact_concat hop, ← ha, hn]
        refine ⟨ns ++ [b], by simp, fit_concat.2 ⟨hfit, ?_⟩, hexact⟩
        rw [← hexact]
        exact Checked.fits_toInt n
      · rintro ⟨ns, hns, hfit, hn⟩
        obtain ⟨before, last, rfl, rfl, hlast⟩ := List.map_eq_append_iff.1 hns.symm
        obtain ⟨b, _, rfl, hb, hend⟩ := List.map_eq_cons_iff.1 hlast
        obtain rfl := List.map_eq_nil_iff.1 hend
        obtain ⟨hbefore, -⟩ := fit_concat.1 hfit
        -- The result on all values before the last one is a machine integer.
        have hfits := hbefore before.length (Nat.le_refl _)
        rw [List.take_length] at hfits
        obtain ⟨a, ha⟩ := hfits.exists_toInt
        refine ⟨a, b, ih.2 ⟨before, rfl, hbefore, ha⟩, hb.symm, ?_⟩
        rw [hn, List.map_append, List.map_singleton, exact_concat hop, ha]

theorem foldl_apply_cases (op : Arithmetic) (values : List Value) :
    (∃ n, values.foldl op.apply op.unit = .int n) ∨
      ∃ f, values.foldl op.apply op.unit = .float f := by
  induction values using List.reverseRecOn with
  | nil => cases op <;> exact .inl ⟨_, rfl⟩
  | append_singleton values v _ =>
      rw [List.foldl_append]
      exact op.apply_cases _ v

theorem faithful_foldl (hop : op ≠ .subtract) (values : List Value) :
    Faithful op values (.ok (values.foldl op.apply op.unit)) where
  integer n := by rw [Except.ok.injEq, foldl_apply_eq_int_iff hop]
  double _ hne := by
    obtain ⟨n, hn⟩ | ⟨f, hf⟩ := op.foldl_apply_cases values
    · exact absurd (congrArg Except.ok hn) (hne n)
    · exact ⟨f, congrArg Except.ok hf⟩

/-- Where a result on integers is no machine integer, all further ones are doubles. -/
theorem Faithful.exists_float (ns : List Int64) {result : Result Value}
    (h : Faithful op (ns.map .int) result) (hfit : ¬ op.Fit ns) :
    ∃ f, result = .ok (.float f) := by
  refine h.double (by simp [Value.isNumber]) fun n hn => hfit ?_
  obtain ⟨ns', hns, hfit', -⟩ := (h.integer n).1 hn
  rwa [List.map_injective_iff.2 (fun _ _ => Value.int.inj) hns]

/-- A result is faithful as soon as it is the one on numbers, and no integer on other values. -/
theorem Faithful.congr {operands : List Value} {result result' : Result Value}
    (h : Faithful op operands result)
    (hnumbers : (∀ v ∈ operands, v.isNumber = true) → result' = result)
    (hothers : ∀ n, result' = .ok (.int n) → ∀ v ∈ operands, v.isNumber = true) :
    Faithful op operands result' where
  integer n := by
    constructor
    · intro hn
      rw [hnumbers (hothers n hn)] at hn
      exact (h.integer n).1 hn
    · rintro ⟨ns, rfl, hfit, hn⟩
      rw [hnumbers (by simp [Value.isNumber])]
      exact (h.integer n).2 ⟨ns, rfl, hfit, hn⟩
  double hall hne := by
    rw [hnumbers hall] at hne ⊢
    exact h.double hall hne

end Arithmetic

open Arithmetic (Faithful)

/-! ## Operators of expressions -/

namespace Operators

variable {op : Arithmetic} {values : List Value}

theorem checkNumeric_eq_ok {operator : String} {v : Value} :
    checkNumeric operator v = .ok () ↔ v.isNumber = true ∨ v.isNull = true := by
  rw [← Bool.or_eq_true, checkNumeric]
  cases v.isNumber || v.isNull <;> simp

theorem forM_checkNumeric_eq_ok {operator : String} : values.forM (checkNumeric operator) = .ok () ↔
    ∀ v ∈ values, v.isNumber = true ∨ v.isNull = true := by
  induction values with
  | nil => simp [pure, Except.pure]
  | cons v rest ih =>
      rw [List.forall_mem_cons, ← ih, ← checkNumeric_eq_ok]
      exact andThen_eq_ok

theorem isNull_eq_false {v : Value} (h : v.isNumber = true) : v.isNull = false := by
  cases v with
  | null => cases h
  | _ => rfl

theorem fold_of_numbers (h : ∀ v ∈ values, v.isNumber = true) :
    fold op values = .ok (values.foldl op.apply op.unit) := by
  have hcheck : values.forM (checkNumeric op.name) = .ok () :=
    forM_checkNumeric_eq_ok.2 fun v hv => .inl (h v hv)
  have hnull : values.any Value.isNull = false :=
    List.any_eq_false.2 fun v hv => by simp [isNull_eq_false (h v hv)]
  rw [fold, hcheck, hnull]
  rfl

theorem numbers_of_fold {n : Int64} (h : fold op values = .ok (.int n)) :
    ∀ v ∈ values, v.isNumber = true := by
  obtain ⟨_, hcheck, h⟩ := bind_eq_ok.1 h
  split at h
  · cases h
  · rename_i hnull
    intro v hv
    refine (forM_checkNumeric_eq_ok.1 hcheck v hv).resolve_right fun hv' => ?_
    exact hnull (List.any_eq_true.2 ⟨v, hv, hv'⟩)

theorem mem_of_takeDate? {t : Instant} {others : List Value}
    (h : takeDate? values = some (t, others)) : .date t ∈ values := by
  induction values generalizing others with
  | nil => cases h
  | cons v rest ih =>
      unfold takeDate? at h
      split at h
      · cases h
      · rename_i heq
        cases heq
        cases h
        exact List.mem_cons_self
      · rename_i heq
        cases heq
        obtain ⟨⟨t', others'⟩, hrest, heq⟩ := Option.map_eq_some_iff.1 h
        cases heq
        exact List.mem_cons_of_mem _ (ih hrest)

theorem sum_of_numbers (h : ∀ v ∈ values, v.isNumber = true) : sum values = fold .add values := by
  unfold sum
  split
  · rfl
  · rename_i hdate
    cases h _ (mem_of_takeDate? hdate)

/-- With a date among the operands, the sum is a date or null. -/
theorem numbers_of_sum {n : Int64} (h : sum values = .ok (.int n)) :
    ∀ v ∈ values, v.isNumber = true := by
  unfold sum at h
  split at h
  · exact numbers_of_fold h
  · obtain ⟨ms, -, h⟩ := bind_eq_ok.1 h
    exfalso
    split at h
    · cases h
    · unfold shift at h
      split at h <;> cases h

theorem faithful_fold (hop : op ≠ .subtract) (values : List Value) :
    Faithful op values (fold op values) :=
  (Arithmetic.faithful_foldl hop values).congr fold_of_numbers fun _ => numbers_of_fold

theorem faithful_sum (values : List Value) : Faithful .add values (sum values) :=
  (faithful_fold (by decide) values).congr sum_of_numbers fun _ => numbers_of_sum

theorem difference_of_numbers {a b : Value} (ha : a.isNumber = true) (hb : b.isNumber = true) :
    difference a b = .ok (Arithmetic.subtract.apply a b) := by
  cases a with
  | int _ =>
      cases b with
      | int _ => rfl
      | float _ => rfl
      | _ => cases hb
  | float _ =>
      cases b with
      | int _ => rfl
      | float _ => rfl
      | _ => cases hb
  | _ => cases ha

end Operators

namespace Expr

variable {doc : Value}

/-- An expression that has a value just if an operator gives one. -/
theorem eval_of_eval?_eq {e : Expr} {result : Result Value}
    (h : eval? doc e = do return some (← result)) : e.eval doc = result := by
  rw [eval, h]
  cases result with
  | ok v => rfl
  | error error => rfl

theorem eval_add {args : List Expr} {values : List Value} (h : evalItems doc args = .ok values) :
    (add args).eval doc = Operators.sum values := by
  refine eval_of_eval?_eq ?_
  rw [eval?, h]
  rfl

theorem eval_multiply {args : List Expr} {values : List Value}
    (h : evalItems doc args = .ok values) :
    (multiply args).eval doc = Operators.fold .multiply values := by
  refine eval_of_eval?_eq ?_
  rw [eval?, h]
  rfl

theorem eval_subtract {a b : Expr} {x y : Value} (ha : a.eval doc = .ok x)
    (hb : b.eval doc = .ok y) : (subtract a b).eval doc = Operators.difference x y := by
  obtain ⟨x', hx, ⟨⟩⟩ := bind_eq_ok.1 ha
  obtain ⟨y', hy, ⟨⟩⟩ := bind_eq_ok.1 hb
  refine eval_of_eval?_eq ?_
  rw [eval?, hx, hy]
  rfl

end Expr

/-! ## Accumulated sums -/

namespace Accumulation

/-- The numbers among inputs. -/
def numbers (inputs : List (Option Value)) : List Value :=
  inputs.filterMap (Option.filter Value.isNumber)

/-- What is missing or no number does not count for a sum. -/
theorem foldl_feed_sum (inputs : List (Option Value)) (total : Value) :
    inputs.foldl (fun acc input => feed input acc) (Accumulation.sum total) =
      Accumulation.sum ((numbers inputs).foldl Arithmetic.add.apply total) := by
  induction inputs generalizing total with
  | nil => rfl
  | cons input rest ih =>
      rw [List.foldl_cons, numbers, List.filterMap_cons]
      cases input with
      | none => exact ih total
      | some v =>
          rw [feed, feedValue, addTo, ih, Option.filter_some]
          cases v.isNumber with
          | true => rfl
          | false => rfl

end Accumulation

/-! ## Increments -/

/-- An increment by a number. What is found at the path afterwards is the exact sum, or a double; a
number that is there fails to be incremented only where a sum with a double is not finite. -/
structure Increments (m : Fields Value) (path : String) (delta : Value) : Prop where
  faithful : ∀ m' changed, (Change.increment path delta).apply m = .ok (m', changed) →
    ∃ v, Fields.getPath? m' path = some v ∧
      Faithful .add ((Fields.getPath? m path).toList ++ [delta]) (.ok v)
  failure : ∀ current e, Fields.getPath? m path = some current → current.isNumber = true →
    (Change.increment path delta).apply m = .error e →
      e = .arithmetic (.incrementOverflow path) ∧ ∃ f, .float f ∈ [current, delta]

namespace Change

variable {path : String} {current delta v w : Value}

/-- With a double among them, numbers are added as doubles, unless the sum is not finite. -/
theorem sum_of_float {a f : Float} (ha : current.float? = some a)
    (hf : .float f ∈ [current, delta]) :
    sum path current delta = .ok (Arithmetic.add.rounded current delta) ∨
      sum path current delta = .error (.arithmetic (.incrementOverflow path)) := by
  unfold sum
  split
  · simp at hf
  · rw [Arithmetic.rounded, ha]
    dsimp only
    split
    · exact .inl rfl
    · exact .inr rfl

/-- The sum of two numbers, unless it is a double that is not finite. -/
theorem sum_of_numbers (path : String) (hcurrent : current.isNumber = true)
    (hdelta : delta.isNumber = true) :
    sum path current delta = .ok (Arithmetic.add.apply current delta) ∨
      sum path current delta = .error (.arithmetic (.incrementOverflow path)) ∧
        ∃ f, .float f ∈ [current, delta] := by
  cases current with
  | int a =>
      cases delta with
      | int b =>
          left
          rw [sum, Arithmetic.apply, Arithmetic.onInts?]
          cases Checked.add? a b <;> rfl
      | float f =>
          have hf : Value.float f ∈ [Value.int a, .float f] := List.mem_cons_of_mem _ (.head _)
          exact (sum_of_float rfl hf).imp_right fun h => ⟨h, f, hf⟩
      | _ => cases hdelta
  | float f =>
      have hf : Value.float f ∈ [Value.float f, delta] := List.mem_cons_self
      exact (sum_of_float rfl hf).imp_right fun h => ⟨h, f, hf⟩
  | _ => cases hcurrent

/-- What is no number has no sum. -/
theorem number_of_sum (h : sum path current delta = .ok v) : current.isNumber = true := by
  cases current with
  | int _ => rfl
  | float _ => rfl
  | _ => cases h

theorem eq_int_iff_of_identical {n : Int64} (h : identical w v = true) :
    w = .int n ↔ v = .int n := by
  obtain ⟨hkind, hequal⟩ := Bool.and_eq_true_iff.1 h
  constructor
  · rintro rfl
    cases v with
    | int k => rw [eq_of_beq hequal]
    | _ => cases hkind
  · rintro rfl
    cases w with
    | int k => rw [eq_of_beq hequal]
    | _ => cases hkind

/-- Of two identical values, each is as exact as the other. -/
theorem faithful_of_identical {op : Arithmetic} {operands : List Value}
    (hsame : identical w v = true) (h : Faithful op operands (.ok v)) :
    Faithful op operands (.ok w) where
  integer n := by
    rw [← h.integer n, Except.ok.injEq, Except.ok.injEq, eq_int_iff_of_identical hsame]
  double hall hne := by
    obtain ⟨f, hf⟩ := h.double hall fun n hn =>
      hne n (congrArg Except.ok ((eq_int_iff_of_identical hsame).2 (Except.ok.inj hn)))
    cases hf
    cases w with
    | float f' => exact ⟨f', rfl⟩
    | _ => cases (Bool.and_eq_true_iff.1 hsame).1

/-- What an increment assigns. -/
theorem faithful_assigned {m : Fields Value} (hdelta : delta.isNumber = true)
    (h : (Fields.getPath? m path).elim (.ok delta) (sum path · delta) = .ok v) :
    Faithful .add ((Fields.getPath? m path).toList ++ [delta]) (.ok v) := by
  cases hget : Fields.getPath? m path with
  | none =>
      rw [hget] at h
      cases h
      exact Arithmetic.faithful_singleton .add hdelta
  | some current =>
      rw [hget] at h
      have hcurrent := number_of_sum h
      obtain hok | ⟨herror, -⟩ := sum_of_numbers path hcurrent hdelta
      · obtain rfl := Except.ok.inj (h.symm.trans hok)
        exact Arithmetic.faithful_apply .add current delta
      · cases h.symm.trans herror

/-- After a value is assigned to a path, it is found there, or an identical one. -/
theorem getPath?_of_assign {m m' : Fields Value} {changed : Bool}
    (h : assign m path v = .ok (m', changed)) :
    ∃ w, Fields.getPath? m' path = some w ∧ (w = v ∨ identical w v = true) := by
  rcases assign_cases h with ⟨w, hw, hsame, rfl, -⟩ | ⟨hset, -⟩
  · exact ⟨w, hw, .inr hsame⟩
  · exact ⟨v, Fields.getPath?_setPath? hset, .inl rfl⟩

/-- Where something is, a value can be assigned. -/
theorem exists_assign_eq_ok {m : Fields Value} (h : Fields.getPath? m path = some current)
    (v : Value) : ∃ out, assign m path v = .ok out := by
  rw [assign_eq]
  split
  · exact ⟨_, rfl⟩
  · obtain ⟨p, hp, -⟩ := Fields.place?_of_getPath? h
    rw [Fields.setPath?_of_place? hp]
    exact ⟨_, rfl⟩

theorem increments (m : Fields Value) (path : String) (hdelta : delta.isNumber = true) :
    Increments m path delta where
  faithful m' changed h := by
    obtain ⟨v, hv, hassign⟩ := exists_assign_of_increment h
    have hfaithful := faithful_assigned hdelta hv
    obtain ⟨w, hw, rfl | hsame⟩ := getPath?_of_assign hassign
    · exact ⟨w, hw, hfaithful⟩
    · exact ⟨w, hw, faithful_of_identical hsame hfaithful⟩
  failure current e hget hcurrent h := by
    rw [apply_increment, hget, Option.elim_some] at h
    obtain hok | ⟨herror, hfloat⟩ := sum_of_numbers path hcurrent hdelta
    · -- The sum would be assigned.
      rw [hok] at h
      obtain ⟨_, hout⟩ := exists_assign_eq_ok hget (Arithmetic.add.apply current delta)
      cases hout.symm.trans h
    · rw [herror] at h
      cases h
      exact ⟨rfl, hfloat⟩

end Change

/-! ## All operations on numbers -/

/-- **Integers are never wrapped or rounded.** On evaluated operands, sums and products of any
length and the difference of two numbers are faithful, and so is the accumulated sum of the numbers
among inputs and the sum that an increment leaves. -/
theorem faithful_arithmetic :
    (∀ (doc : Value) (args : List Expr) (values : List Value),
      Expr.evalItems doc args = .ok values →
        Faithful .add values ((Expr.add args).eval doc) ∧
          Faithful .multiply values ((Expr.multiply args).eval doc)) ∧
    (∀ (doc : Value) (a b : Expr) (x y : Value), a.eval doc = .ok x → b.eval doc = .ok y →
      x.isNumber = true → y.isNumber = true →
        Faithful .subtract [x, y] ((Expr.subtract a b).eval doc)) ∧
    (∀ inputs : List (Option Value), Faithful .add (Accumulation.numbers inputs)
      (.ok (inputs.foldl (fun acc input => acc.feed input) AccumulatorOp.sum.start).result)) ∧
    ∀ (m : Fields Value) (path : String) (delta : Value), delta.isNumber = true →
      Increments m path delta := by
  refine ⟨fun doc args values h => ⟨?_, ?_⟩, fun doc a b x y ha hb hx hy => ?_, fun inputs => ?_,
    fun m path delta hdelta => Change.increments m path hdelta⟩
  · rw [Expr.eval_add h]
    exact Operators.faithful_sum values
  · rw [Expr.eval_multiply h]
    exact Operators.faithful_fold (by decide) values
  · rw [Expr.eval_subtract ha hb, Operators.difference_of_numbers hx hy]
    exact Arithmetic.faithful_apply .subtract x y
  · have hsum : (inputs.foldl (fun acc input => acc.feed input) AccumulatorOp.sum.start).result =
        (Accumulation.numbers inputs).foldl Arithmetic.add.apply (Arithmetic.unit .add) :=
      congrArg Accumulation.result (Accumulation.foldl_feed_sum inputs (.int 0))
    rw [hsum]
    exact Arithmetic.faithful_foldl (by decide) _

/-- A sum that left the range of machine integers stays a double, though its end would fit again; a
product with zero is an integer. -/
theorem faithful_arithmetic_limits :
    let ns := [Int64.maxValue, 1, -1]
    let constant (n : Int64) := Expr.literal (.int n)
    let inputs : List (Option Value) := ns.map (some ∘ .int) ++ [none, some (.string "1")]
    (∃ f, (Expr.add (ns.map constant)).eval .null = .ok (.float f)) ∧
      (Expr.multiply [constant Int64.minValue, constant 0]).eval .null = .ok (.int 0) ∧
      (∃ f, (Expr.subtract (constant Int64.minValue) (constant 1)).eval .null = .ok (.float f)) ∧
      (∃ f, (inputs.foldl (fun acc input => acc.feed input) AccumulatorOp.sum.start).result =
        .float f) ∧
      ∃ m f, (Change.increment "stock" (.int 1)).apply [("stock", .int Int64.maxValue)] =
        .ok (m, true) ∧ Fields.getPath? m "stock" = some (.float f) := by
  intro ns constant inputs
  obtain ⟨hfold, hdifference, hsum, hincrement⟩ := faithful_arithmetic
  obtain ⟨hadd, -⟩ := hfold .null (ns.map constant) (ns.map .int) rfl
  obtain ⟨-, hmultiply⟩ := hfold .null [constant Int64.minValue, constant 0]
    ([Int64.minValue, 0].map .int) rfl
  have hsubtract := hdifference .null (constant Int64.minValue) (constant 1) _ _ rfl rfl rfl rfl
  refine ⟨hadd.exists_float ns (by decide), (hmultiply.integer 0).2 ⟨_, rfl, by decide, by decide⟩,
    hsubtract.exists_float [Int64.minValue, 1] (by decide), ?_, ?_⟩
  · obtain ⟨f, hf⟩ := (hsum inputs).exists_float ns (by decide)
    exact ⟨f, Except.ok.inj hf⟩
  · have happly : (Change.increment "stock" (.int 1)).apply [("stock", .int Int64.maxValue)] =
        .ok ([("stock", Arithmetic.add.rounded (.int Int64.maxValue) (.int 1))], true) := rfl
    obtain ⟨v, hv, hfaithful⟩ := (hincrement _ _ _ rfl).faithful _ _ happly
    obtain ⟨f, hf⟩ := hfaithful.exists_float [Int64.maxValue, 1] (by decide)
    cases hf
    exact ⟨_, f, happly, hv⟩

end DocStore
