import Mathlib.Algebra.BigOperators.Group.List.Basic
import Mathlib.Algebra.Order.Group.Int
import DocStore.Proofs.Number.Exact
import DocStore.Proofs.Pipeline.Keyed

/-!
# Totals of integers

The sum of inputs without doubles is their exact total as long as no running total leaves the range
of machine integers, and a double as soon as one does, though the total may fit again. So the order
of the inputs counts, unless the positive ones and the negative ones have totals that fit: these
bound every running total.
-/

set_option autoImplicit false

namespace DocStore

/-! ## Running totals of exact integers -/

namespace Arithmetic

/-- The total of the positive integers of a list. -/
def gains (ns : List Int) : Int := (ns.filter (0 < ·)).sum

/-- The total of the others. -/
def losses (ns : List Int) : Int := (ns.filter (¬ 0 < ·)).sum

theorem gains_cons (n : Int) (ns : List Int) : gains (n :: ns) = max n 0 + gains ns := by
  rw [gains, List.filter_cons]
  split <;> rename_i hn <;> simp only [decide_eq_true_eq] at hn
  · rw [List.sum_cons, gains, max_eq_left hn.le]
  · rw [gains, max_eq_right (not_lt.1 hn), zero_add]

theorem losses_cons (n : Int) (ns : List Int) : losses (n :: ns) = min n 0 + losses ns := by
  rw [losses, List.filter_cons]
  split <;> rename_i hn <;> simp only [decide_eq_true_eq] at hn
  · rw [List.sum_cons, losses, min_eq_left (not_lt.1 hn)]
  · rw [losses, min_eq_right (not_not.1 hn).le, zero_add]

theorem losses_le_zero_le_gains (ns : List Int) : losses ns ≤ 0 ∧ 0 ≤ gains ns := by
  induction ns with
  | nil => exact ⟨le_refl 0, le_refl 0⟩
  | cons n rest ih =>
      rw [losses_cons, gains_cons]
      omega

/-- **A running total** lies between the total of the losses and that of the gains. -/
theorem sum_take_mem (ns : List Int) (k : Nat) :
    losses ns ≤ (ns.take k).sum ∧ (ns.take k).sum ≤ gains ns := by
  induction ns generalizing k with
  | nil => simp [losses, gains]
  | cons n rest ih =>
      cases k with
      | zero => exact losses_le_zero_le_gains (n :: rest)
      | succ k =>
          have hrest := ih k
          rw [List.take_succ_cons, List.sum_cons, losses_cons, gains_cons]
          omega

theorem gains_perm {ms ns : List Int} (h : ms.Perm ns) : gains ms = gains ns :=
  (h.filter _).sum_eq

theorem losses_perm {ms ns : List Int} (h : ms.Perm ns) : losses ms = losses ns :=
  (h.filter _).sum_eq

/-- Gains and losses that fit keep every running total in range, in every order. -/
theorem fit_of_gains_losses {ns : List Int64} (hgains : Checked.Fits (gains (ns.map (·.toInt))))
    (hlosses : Checked.Fits (losses (ns.map (·.toInt)))) : add.Fit ns := by
  intro k _
  have hrange := sum_take_mem (ns.map (·.toInt)) k
  rw [← List.map_take] at hrange
  exact ⟨hlosses.1.trans hrange.1, hrange.2.trans hgains.2⟩

end Arithmetic

open Arithmetic (gains losses)
open Checked (Fits)

namespace Accumulation

variable {inputs inputs' : List (Option Value)}

/-! ## The integers among inputs -/

/-- The integers among inputs, in their order. -/
def integers (inputs : List (Option Value)) : List Int64 := inputs.filterMap (·.bind Value.int?)

/-- The exact integers among inputs. -/
def exactIntegers (inputs : List (Option Value)) : List Int := (integers inputs).map (·.toInt)

/-- All numbers among inputs are integers. -/
def NoDoubles (inputs : List (Option Value)) : Prop := ∀ f, some (.float f) ∉ inputs

theorem numbers_eq (h : NoDoubles inputs) : numbers inputs = (integers inputs).map .int := by
  rw [numbers, integers, List.map_filterMap]
  refine List.filterMap_congr fun input hinput => ?_
  cases input with
  | none => rfl
  | some v =>
      cases v with
      | float f => exact absurd hinput (h f)
      | _ => rfl

theorem NoDoubles.perm (h : NoDoubles inputs) (hperm : inputs'.Perm inputs) : NoDoubles inputs' :=
  fun f hf => h f (hperm.mem_iff.1 hf)

theorem exactIntegers_perm (h : inputs'.Perm inputs) :
    (exactIntegers inputs').Perm (exactIntegers inputs) :=
  (h.filterMap _).map _

theorem integers_append (inputs inputs' : List (Option Value)) :
    integers (inputs ++ inputs') = integers inputs ++ integers inputs' := List.filterMap_append

/-- The integers of the inputs whose integers are picked out. -/
theorem integers_filter (p : Int64 → Bool) (inputs : List (Option Value)) :
    integers (inputs.filter fun input => (input.bind Value.int?).any p) =
      (integers inputs).filter p := by
  rw [integers, integers, List.filterMap_filter, List.filter_filterMap]
  refine List.filterMap_congr fun input _ => ?_
  cases input.bind Value.int? with
  | none => rfl
  | some n => cases hn : p n <;> simp [hn, Option.filter]

/-! ## The accumulated sum -/

theorem accumulate_sum (inputs : List (Option Value)) :
    AccumulatorOp.sum.accumulate inputs =
      (numbers inputs).foldl Arithmetic.add.apply (Arithmetic.unit .add) :=
  congrArg result (foldl_feed_sum inputs (.int 0))

theorem faithful_accumulate (h : NoDoubles inputs) :
    Arithmetic.Faithful .add ((integers inputs).map .int)
      (.ok (AccumulatorOp.sum.accumulate inputs)) := by
  rw [accumulate_sum, numbers_eq h]
  exact Arithmetic.faithful_foldl (by decide) _

/-- **One order.** The sum is an integer just if no running total leaves the range of machine
integers, and then the exact total. -/
theorem accumulate_sum_eq_int_iff (h : NoDoubles inputs) {n : Int64} :
    AccumulatorOp.sum.accumulate inputs = .int n ↔
      Arithmetic.add.Fit (integers inputs) ∧ n.toInt = (exactIntegers inputs).sum := by
  rw [← Except.ok.injEq, (faithful_accumulate h).integer n]
  constructor
  · rintro ⟨ns, hns, hsum⟩
    obtain rfl : integers inputs = ns :=
      List.map_injective_iff.2 (fun _ _ => Value.int.inj) hns
    exact hsum
  · exact fun hsum => ⟨_, rfl, hsum⟩

theorem exists_accumulate_sum (h : NoDoubles inputs) (hfit : Arithmetic.add.Fit (integers inputs)) :
    ∃ n, AccumulatorOp.sum.accumulate inputs = .int n ∧
      n.toInt = (exactIntegers inputs).sum := by
  obtain ⟨n, hn⟩ := hfit.total.exists_toInt
  exact ⟨n, (accumulate_sum_eq_int_iff h).2 ⟨hfit, hn⟩, hn⟩

/-- **All orders.** With gains and losses that fit, the sum is the exact total in every order. -/
theorem exists_accumulate_sum_of_perm (h : NoDoubles inputs)
    (hgains : Fits (gains (exactIntegers inputs))) (hlosses : Fits (losses (exactIntegers inputs)))
    (hperm : inputs'.Perm inputs) : ∃ n, AccumulatorOp.sum.accumulate inputs' = .int n ∧
      n.toInt = (exactIntegers inputs).sum := by
  have hexact := exactIntegers_perm hperm
  rw [← Arithmetic.gains_perm hexact] at hgains
  rw [← Arithmetic.losses_perm hexact] at hlosses
  rw [← hexact.sum_eq]
  exact exists_accumulate_sum (h.perm hperm) (Arithmetic.fit_of_gains_losses hgains hlosses)

/-- If the sum is an integer in every order, what stands first may be any part of the inputs. -/
theorem fits_filter (h : NoDoubles inputs) (p : Int64 → Bool)
    (hall : ∀ inputs' : List (Option Value), inputs'.Perm inputs →
      ∃ n, AccumulatorOp.sum.accumulate inputs' = .int n) :
    Fits (((integers inputs).filter p).map (·.toInt)).sum := by
  -- In the order that starts with this part, its total is a running total.
  have hperm := List.filter_append_perm (fun input => (input.bind Value.int?).any p) inputs
  obtain ⟨n, hn⟩ := hall _ hperm
  obtain ⟨hfit, -⟩ := (accumulate_sum_eq_int_iff (h.perm hperm)).1 hn
  rw [integers_append, integers_filter] at hfit
  exact hfit.left

/-- **What the sum of inputs without doubles is.** -/
structure SumsUp (inputs : List (Option Value)) : Prop where
  integer : Arithmetic.add.Fit (integers inputs) →
    ∃ n, AccumulatorOp.sum.accumulate inputs = .int n ∧ n.toInt = (exactIntegers inputs).sum
  double : ¬ Arithmetic.add.Fit (integers inputs) →
    ∃ f, AccumulatorOp.sum.accumulate inputs = .float f
  /-- In every order it is the exact total just if the gains fit and the losses do. -/
  anyOrder_iff : (∀ inputs' : List (Option Value), inputs'.Perm inputs →
      ∃ n, AccumulatorOp.sum.accumulate inputs' = .int n ∧ n.toInt = (exactIntegers inputs).sum) ↔
    Fits (gains (exactIntegers inputs)) ∧ Fits (losses (exactIntegers inputs))
  /-- Then the row of a group has it, in whatever order the documents arrive that give the
  inputs. -/
  row : Fits (gains (exactIntegers inputs)) → Fits (losses (exactIntegers inputs)) →
    ∀ (accs : Accumulators) (name : String) (operand : Expr) (id : Value) (docs : List Value),
      (accs.map (·.1)).Nodup → (name, { op := .sum, input := operand }) ∈ accs →
      (∀ d ∈ docs, accs.Computes d) →
      (docs.map (Accumulator.inputOf { op := .sum, input := operand })).Perm inputs →
      ∃ n, (accs.row id (docs.map (GroupStage.inputsOf accs))).get? name = some (.int n) ∧
        n.toInt = (exactIntegers inputs).sum

/-- **Sums of integers** are exact while the running totals fit, and independent of the order of
the inputs just if their gains and their losses fit. -/
theorem sumsUp_of_noDoubles (h : NoDoubles inputs) : SumsUp inputs where
  integer := exists_accumulate_sum h
  double hfit := by
    obtain ⟨f, hf⟩ := (faithful_accumulate h).exists_float (integers inputs) hfit
    exact ⟨f, Except.ok.inj hf⟩
  anyOrder_iff := by
    constructor
    · intro hall
      have hints (inputs' : List (Option Value)) (hperm : inputs'.Perm inputs) :
          ∃ n, AccumulatorOp.sum.accumulate inputs' = .int n :=
        (hall inputs' hperm).imp fun _ hn => hn.1
      have hgains := fits_filter h (fun n => 0 < n.toInt) hints
      have hlosses := fits_filter h (fun n => ¬ 0 < n.toInt) hints
      rw [gains, losses, exactIntegers, List.filter_map, List.filter_map]
      exact ⟨hgains, hlosses⟩
    · rintro ⟨hgains, hlosses⟩ inputs' hperm
      exact exists_accumulate_sum_of_perm h hgains hlosses hperm
  row hgains hlosses accs name operand id docs hnames hmem hdocs hperm := by
    obtain ⟨n, hn, htotal⟩ := exists_accumulate_sum_of_perm h hgains hlosses hperm
    refine ⟨n, ?_, htotal⟩
    rw [Accumulators.get?_row_of_mem hnames hmem id hdocs, hn]

/-- What is counted, with something missing and a text in between. -/
def counts : List (Option Value) :=
  [some (.int Int64.maxValue), none, some (.int (-3)), some (.string "many"), some (.int 3)]

/-- The total of the counts is exact in the order in which they stand, but not in every order. -/
theorem sumsUp_of_noDoubles_counts : NoDoubles counts ∧
    AccumulatorOp.sum.accumulate counts = .int Int64.maxValue ∧
    ¬ ∀ inputs' : List (Option Value), inputs'.Perm counts →
      ∃ n, AccumulatorOp.sum.accumulate inputs' = .int n ∧
        n.toInt = (exactIntegers counts).sum := by
  have hdoubles : NoDoubles counts := by
    intro f hf
    simp [counts] at hf
  have hsums : SumsUp counts := sumsUp_of_noDoubles hdoubles
  obtain ⟨n, hn, htotal⟩ := hsums.integer (by decide)
  obtain rfl : n = Int64.maxValue := Int64.toInt_inj.1 htotal
  have hgains : ¬ Fits (gains (exactIntegers counts)) := by decide
  exact ⟨hdoubles, hn, fun hall => hgains (hsums.anyOrder_iff.1 hall).1⟩

/-- Integers with a total that fits do not add up to it in every order. -/
theorem not_sum_of_fitting_total :
    let inputs (ns : List Int64) : List (Option Value) := ns.map (some ∘ .int)
    NoDoubles (inputs [Int64.maxValue, 1, -1]) ∧
      (exactIntegers (inputs [Int64.maxValue, 1, -1])).sum = Int64.maxValue.toInt ∧
      (∀ n, AccumulatorOp.sum.accumulate (inputs [Int64.maxValue, 1, -1]) ≠ .int n) ∧
      AccumulatorOp.sum.accumulate (inputs [1, -1, Int64.maxValue]) = .int Int64.maxValue := by
  intro inputs
  refine ⟨fun f hf => ?_, by decide, fun n hn => ?_, rfl⟩
  · simp [inputs] at hf
  · cases hn

end Accumulation

end DocStore
