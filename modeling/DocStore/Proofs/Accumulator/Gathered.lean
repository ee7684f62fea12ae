import Mathlib.Data.List.ReduceOption
import DocStore.Proofs.Pipeline.Keyed
import DocStore.Proofs.Query.SortKeys

/-!
# What accumulators gather

The least and the greatest value, the values in their order, the first and the last one, and those
that are new: each accumulator is fed one input at a time, and gives what its name says of all of
them. The least and the greatest value rest on the order of values, which is a preorder where the
integers are precise.
-/

set_option autoImplicit false

namespace DocStore

namespace Value

/-- The values of which no earlier one has the same canonical key. -/
def firstOfKeys (vs : List Value) : List Value :=
  (vs.zipIdx.filter fun e => (vs.take e.2).all (·.canonicalKey != e.1.canonicalKey)).map (·.1)

/-- A value at the end is new if none before it has its key. -/
theorem firstOfKeys_concat (vs : List Value) (v : Value) : firstOfKeys (vs ++ [v]) =
    firstOfKeys vs ++ if vs.all (·.canonicalKey != v.canonicalKey) then [v] else [] := by
  have hbefore : vs.zipIdx.filter
      (fun e => ((vs ++ [v]).take e.2).all (·.canonicalKey != e.1.canonicalKey)) =
      vs.zipIdx.filter fun e => (vs.take e.2).all (·.canonicalKey != e.1.canonicalKey) := by
    refine List.filter_congr fun e he => ?_
    have hlt : e.2 < vs.length := by simpa using List.snd_lt_of_mem_zipIdx he
    rw [List.take_append_of_le_length hlt.le]
  rw [firstOfKeys, List.zipIdx_append, List.filter_append, hbefore, List.map_append, firstOfKeys,
    List.zipIdx_singleton, List.filter_cons, List.filter_nil]
  simp only [Nat.zero_add, List.take_left]
  split <;> rfl

/-- Every key has a first value. -/
theorem any_key_firstOfKeys (vs : List Value) (k : String) :
    (firstOfKeys vs).any (·.canonicalKey == k) = vs.any (·.canonicalKey == k) := by
  induction vs using List.reverseRecOn with
  | nil => rfl
  | append_singleton vs v ih =>
      rw [firstOfKeys_concat, List.any_append, List.any_append, ih]
      cases hall : vs.all (·.canonicalKey != v.canonicalKey) with
      | true => rfl
      | false =>
          -- The key of `v` is that of a value before it.
          obtain ⟨w, hw, hkey⟩ : ∃ w ∈ vs, w.canonicalKey = v.canonicalKey := by
            simpa using hall
          by_cases hk : v.canonicalKey = k
          · have hany : vs.any (·.canonicalKey == k) = true :=
              List.any_eq_true.2 ⟨w, hw, by simpa using hkey.trans hk⟩
            rw [hany]
            rfl
          · simp [hk]

end Value

namespace Accumulation

open Sorting (EarliestLeast Preordered best? keep)

variable {inputs : List (Option Value)}

/-- The values among inputs that are not null. -/
def counted (inputs : List (Option Value)) : List Value :=
  inputs.reduceOption.filter fun v => !v.isNull

theorem counted_none : counted (none :: inputs) = counted inputs := by
  rw [counted, List.reduceOption_cons_of_none, counted]

theorem counted_some (v : Value) : counted (some v :: inputs) =
    if v.isNull then counted inputs else v :: counted inputs := by
  rw [counted, List.reduceOption_cons_of_some, List.filter_cons, counted]
  cases v.isNull <;> rfl

theorem counted_append (xs ys : List (Option Value)) :
    counted (xs ++ ys) = counted xs ++ counted ys := by
  rw [counted, List.reduceOption_append, List.filter_append, counted, counted]

theorem mem_counted {v : Value} :
    v ∈ counted inputs ↔ some v ∈ inputs ∧ v.isNull = false := by
  rw [counted, List.mem_filter, List.reduceOption_mem_iff, Bool.not_eq_true']

/-! ## Extremes -/

/-- An accumulator that keeps the better value gives the best of those that count. -/
theorem foldl_feed_keep (state : Option Value → Accumulation) {cmp : Value → Value → Ordering}
    (hnone : ∀ best, feed none (state best) = state best)
    (hsome : ∀ v best, feed (some v) (state best) =
      state (if v.isNull then best else keep cmp best v)) (best : Option Value) :
    inputs.foldl (fun acc input => feed input acc) (state best) =
      state ((counted inputs).foldl (keep cmp) best) := by
  induction inputs generalizing best with
  | nil => rfl
  | cons input rest ih =>
      rw [List.foldl_cons]
      cases input with
      | none => rw [hnone, ih, counted_none]
      | some v =>
          rw [hsome, ih, counted_some]
          cases v.isNull <;> rfl

theorem better_lt (best : Option Value) (v : Value) :
    better .lt best v = if v.isNull then best else keep Value.compare best v := by
  cases best <;> cases hv : v.isNull <;> simp [better, keep, hv]

theorem better_gt (best : Option Value) (v : Value) :
    better .gt best v = if v.isNull then best else keep (fun a b => b.compare a) best v := by
  cases best with
  | none => cases hv : v.isNull <;> simp [better, keep, hv]
  | some b =>
      have hswap : v.compare b = .gt ↔ b.compare v = .lt := by
        rw [← Value.compare_swap b v]
        cases b.compare v <;> simp
      cases hv : v.isNull <;> simp [better, keep, hv, hswap]

theorem accumulate_min (inputs : List (Option Value)) :
    AccumulatorOp.min.accumulate inputs =
      (best? Value.compare (counted inputs)).getD .null :=
  congrArg result (foldl_feed_keep min (fun _ => rfl)
    (fun v best => congrArg min (better_lt best v)) none)

theorem accumulate_max (inputs : List (Option Value)) :
    AccumulatorOp.max.accumulate inputs =
      (best? (fun a b => Value.compare b a) (counted inputs)).getD .null :=
  congrArg result (foldl_feed_keep max (fun _ => rfl)
    (fun v best => congrArg max (better_gt best v)) none)

/-- All integers in the inputs are precise, at every depth. -/
def AllPrecise (inputs : List (Option Value)) : Prop := ∀ v, some v ∈ inputs → v.AllPrecise

theorem AllPrecise.preordered (h : AllPrecise inputs) :
    Preordered Value.compare (counted inputs) where
  swap a _ b _ := Value.compare_swap a b
  coherent a ha b hb c hc := Value.coherent_compare_of_allPrecise (h a (mem_counted.1 ha).1)
    (h b (mem_counted.1 hb).1) (h c (mem_counted.1 hc).1)

/-- What counts of two results, which are null where there is none. -/
theorem counted_results {a b : Option Value} (ha : ∀ v ∈ a, v.isNull = false)
    (hb : ∀ v ∈ b, v.isNull = false) :
    counted [some (a.getD .null), some (b.getD .null)] = a.toList ++ b.toList := by
  cases a <;> cases b <;> simp_all [Value.isNull, counted]

/-- **Parts.** The best of all inputs is the best of the best ones of two parts. -/
theorem accumulate_append {op : AccumulatorOp} {cmp : Value → Value → Ordering}
    (hop : ∀ inputs, op.accumulate inputs = (best? cmp (counted inputs)).getD .null)
    {xs ys : List (Option Value)} (h : Preordered cmp (counted (xs ++ ys))) :
    op.accumulate (xs ++ ys) =
      op.accumulate [some (op.accumulate xs), some (op.accumulate ys)] := by
  have hnull {inputs : List (Option Value)} (hsub : counted inputs ⊆ counted (xs ++ ys)) :
      ∀ v ∈ best? cmp (counted inputs), v.isNull = false := by
    intro v hv
    by_cases hnil : counted inputs = []
    · rw [hnil] at hv
      cases hv
    · obtain ⟨w, hw, hleast⟩ := Sorting.exists_best? (h.mono hsub) hnil
      obtain rfl := Option.some.inj (hw.symm.trans hv)
      exact (mem_counted.1 hleast.mem).2
  have hxs : counted xs ⊆ counted (xs ++ ys) := by
    rw [counted_append]
    exact List.subset_append_left _ _
  have hys : counted ys ⊆ counted (xs ++ ys) := by
    rw [counted_append]
    exact List.subset_append_right _ _
  rw [hop, hop xs, hop ys, hop, counted_results (hnull hxs) (hnull hys), counted_append]
  rw [counted_append] at h
  rw [Sorting.best?_append h]

/-! ## Values in their order -/

theorem foldl_feed_push (items : List Value) :
    inputs.foldl (fun acc input => feed input acc) (push items) =
      push (items ++ inputs.reduceOption) := by
  induction inputs generalizing items with
  | nil => rw [List.reduceOption_nil, List.append_nil, List.foldl_nil]
  | cons input rest ih =>
      rw [List.foldl_cons]
      cases input with
      | none => exact ih items
      | some v =>
          rw [List.reduceOption_cons_of_some, List.append_cons]
          exact ih (items ++ [v])

theorem accumulate_push (inputs : List (Option Value)) :
    AccumulatorOp.push.accumulate inputs = .array inputs.reduceOption :=
  congrArg result (foldl_feed_push [])

theorem accumulate_first (inputs : List (Option Value)) :
    AccumulatorOp.first.accumulate inputs = inputs.head?.join.getD .null := by
  have hkept (v : Value) (rest : List (Option Value)) :
      rest.foldl (fun acc input => feed input acc) (first (some v)) = first (some v) := by
    induction rest with
    | nil => rfl
    | cons input rest ih => cases input <;> exact ih
  cases inputs with
  | nil => rfl
  | cons input rest =>
      cases input with
      | none => exact congrArg result (hkept .null rest)
      | some v => exact congrArg result (hkept v rest)

theorem accumulate_last (inputs : List (Option Value)) :
    AccumulatorOp.last.accumulate inputs = inputs.getLast?.join.getD .null := by
  have hstate (l : List (Option Value)) : ∃ v,
      l.foldl (fun acc input => feed input acc) AccumulatorOp.last.start = last v := by
    induction l using List.reverseRecOn with
    | nil => exact ⟨none, rfl⟩
    | append_singleton l input ih =>
        obtain ⟨v, hv⟩ := ih
        rw [List.foldl_append, hv]
        cases input <;> exact ⟨_, rfl⟩
  induction inputs using List.reverseRecOn with
  | nil => rfl
  | append_singleton before input _ =>
      obtain ⟨v, hv⟩ := hstate before
      rw [AccumulatorOp.accumulate, List.foldl_append, hv, List.getLast?_concat]
      cases input <;> rfl

/-! ## New values -/

theorem addNew_firstOfKeys (vs : List Value) (v : Value) :
    addNew (Value.firstOfKeys vs) v = Value.firstOfKeys (vs ++ [v]) := by
  rw [addNew, Value.any_key_firstOfKeys, Value.firstOfKeys_concat, List.all_eq_not_any_not]
  simp only [bne, Bool.not_not]
  cases vs.any (·.canonicalKey == v.canonicalKey) with
  | true => simp
  | false => rfl

theorem foldl_feed_addToSet (inputs : List (Option Value)) :
    inputs.foldl (fun acc input => feed input acc) (addToSet []) =
      addToSet (Value.firstOfKeys inputs.reduceOption) := by
  induction inputs using List.reverseRecOn with
  | nil => rfl
  | append_singleton before input ih =>
      rw [List.foldl_append, ih, List.reduceOption_append]
      cases input with
      | none => rw [List.reduceOption_singleton, Option.toList_none, List.append_nil]; rfl
      | some v => exact congrArg addToSet (addNew_firstOfKeys _ v)

theorem accumulate_addToSet (inputs : List (Option Value)) :
    AccumulatorOp.addToSet.accumulate inputs =
      .array (Value.firstOfKeys inputs.reduceOption) :=
  congrArg result (foldl_feed_addToSet inputs)

/-! ## All of them -/

/-- **What accumulators give for inputs**, missing ones being `none`. -/
structure Gathers (inputs : List (Option Value)) : Prop where
  empty : counted inputs = [] → AccumulatorOp.min.accumulate inputs = .null ∧
    AccumulatorOp.max.accumulate inputs = .null
  least : counted inputs ≠ [] → EarliestLeast Value.compare (counted inputs)
    (AccumulatorOp.min.accumulate inputs)
  greatest : counted inputs ≠ [] → EarliestLeast (fun a b => Value.compare b a) (counted inputs)
    (AccumulatorOp.max.accumulate inputs)
  between : ∀ v, some v ∈ inputs → v.isNull = false →
    (AccumulatorOp.min.accumulate inputs).compare v ≠ .gt ∧
      v.compare (AccumulatorOp.max.accumulate inputs) ≠ .gt
  /-- Two parts of the inputs may be accumulated apart, and then the two results. -/
  parts : ∀ xs ys, inputs = xs ++ ys → ∀ op ∈ [AccumulatorOp.min, .max],
    op.accumulate inputs = op.accumulate [some (op.accumulate xs), some (op.accumulate ys)]
  pushed : AccumulatorOp.push.accumulate inputs = .array inputs.reduceOption
  first : AccumulatorOp.first.accumulate inputs = inputs.head?.join.getD .null
  last : AccumulatorOp.last.accumulate inputs = inputs.getLast?.join.getD .null
  new : AccumulatorOp.addToSet.accumulate inputs =
    .array (Value.firstOfKeys inputs.reduceOption)

/-- An extreme that is accumulated is the earliest one of the values that count. -/
theorem earliestLeast_accumulate {op : AccumulatorOp} {cmp : Value → Value → Ordering}
    (hop : ∀ inputs, op.accumulate inputs = (best? cmp (counted inputs)).getD .null)
    (h : Preordered cmp (counted inputs)) (hne : counted inputs ≠ []) :
    EarliestLeast cmp (counted inputs) (op.accumulate inputs) := by
  obtain ⟨v, hv, hleast⟩ := Sorting.exists_best? h hne
  rw [hop, hv]
  exact hleast

/-- **Accumulators gather** what their names say, if the integers in the inputs are precise. -/
theorem gathers_of_allPrecise (h : AllPrecise inputs) : Gathers inputs where
  empty hnil := by
    rw [accumulate_min, accumulate_max, hnil]
    exact ⟨rfl, rfl⟩
  least := earliestLeast_accumulate accumulate_min h.preordered
  greatest := earliestLeast_accumulate accumulate_max h.preordered.flip
  between v hv hnull := by
    have hmem : v ∈ counted inputs := mem_counted.2 ⟨hv, hnull⟩
    have hne := List.ne_nil_of_mem hmem
    exact ⟨(earliestLeast_accumulate accumulate_min h.preordered hne).least v hmem,
      (earliestLeast_accumulate accumulate_max h.preordered.flip hne).least v hmem⟩
  parts xs ys hsplit op hop := by
    subst hsplit
    rcases List.mem_pair.1 hop with rfl | rfl
    · exact accumulate_append accumulate_min h.preordered
    · exact accumulate_append accumulate_max h.preordered.flip
  pushed := accumulate_push inputs
  first := accumulate_first inputs
  last := accumulate_last inputs
  new := accumulate_addToSet inputs

/-- Readings of an instrument: a five in two spellings, a missing one, a null and a signal. -/
def readings : List (Option Value) :=
  [some (.float 5), none, some .null, some (.int 5), some (.bool true)]

/-- The five that comes first is the least reading, and the only one of its key. -/
theorem gathers_of_allPrecise_readings : AllPrecise readings ∧
    EarliestLeast Value.compare [.float 5, .int 5, .bool true]
      (AccumulatorOp.min.accumulate readings) ∧
    AccumulatorOp.addToSet.accumulate readings =
      .array [.float 5, .null, .bool true] := by
  have hprecise : AllPrecise readings := by
    intro v hv
    simp only [readings, List.mem_cons, Option.some.injEq, reduceCtorEq, List.not_mem_nil,
      or_false, false_or] at hv
    rcases hv with rfl | rfl | rfl | rfl
    · trivial
    · trivial
    · exact (by decide : (5 : Int64).toInt.natAbs ≤ 2 ^ 53)
    · trivial
  have hnew : Value.firstOfKeys readings.reduceOption = [.float 5, .null, .bool true] := by
    have hdouble : (Value.float 5).canonicalKey = "n:5" := by decide +kernel
    have hinteger : (Value.int 5).canonicalKey = "n:5" := by decide +kernel
    have hnull : Value.null.canonicalKey = "null" := rfl
    have htrue : (Value.bool true).canonicalKey = "true" := rfl
    have hvalues : readings.reduceOption =
        [] ++ [.float 5] ++ [.null] ++ [.int 5] ++ [.bool true] := rfl
    rw [hvalues]
    simp only [Value.firstOfKeys_concat]
    simp [Value.firstOfKeys, hdouble, hinteger, hnull, htrue]
  have hgathers := gathers_of_allPrecise hprecise
  exact ⟨hprecise, hgathers.least (List.cons_ne_nil _ _), hgathers.new.trans (congrArg _ hnew)⟩

end Accumulation

end DocStore
