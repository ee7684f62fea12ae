import DocStore.Expr.Basic
import DocStore.Proofs.Filter.Operators
import DocStore.Proofs.Pipeline.Bucket
import DocStore.Proofs.Pipeline.BucketAuto

/-!
# One order of values

Comparison within a class is partial, the order of all values is total, and the two are used side by
side. They never disagree, and the first is silent only about values that are `Incomparable`:
`OneOrder`. So a filter compares as an expression does, a bucket holds what lies between its
boundaries, and group values that are compared before they are sorted are sorted as they compare.
-/

set_option autoImplicit false

namespace DocStore

open Value (compare compareSameClass? Incomparable)

/-! ## Filters -/

namespace Condition

/-- A bound asks for a candidate that can be compared with it and stands to it in the order as the
operator says. -/
theorem anyCompared_iff {accept : Ordering → Bool} {bound : Value} {ts : List Value} :
    anyCompared accept bound ts = true ↔ ∃ c ∈ ts.flatMap candidates,
      ¬ Incomparable c bound ∧ accept (compare c bound) = true := by
  rw [anyCompared, anyCandidate_iff]
  simp only [Value.any_compareSameClass?_iff]

/-- What a range operator asks for, in the words of the relation with the same name. -/
def AsksFor (make : Value → Condition) (relation : Comparison) : Prop :=
  ∀ bound ts, (make bound).holds ts = true ↔ ∃ c ∈ ts.flatMap candidates,
    ¬ Incomparable c bound ∧ relation.holds (compare c bound) = true

theorem asksFor_of_anyCompared {make : Value → Condition} {accept : Ordering → Bool}
    {relation : Comparison} (hnil : ∀ bound, (make bound).holds [] = false)
    (hcons : ∀ bound t rest, (make bound).holds (t :: rest) = anyCompared accept bound (t :: rest))
    (haccept : ∀ o, accept o = relation.holds o) : AsksFor make relation := by
  intro bound ts
  -- A path that reaches nothing is a case of its own for every condition.
  cases ts with
  | nil => simp [hnil]
  | cons t rest => rw [hcons, anyCompared_iff, funext haccept]

theorem asksFor_range {op : String} (hop : op ∈ ["$gt", "$gte", "$lt", "$lte"]) :
    ∃ make relation, comparison? op = some make ∧ Comparison.ofName? op = some relation ∧
      AsksFor make relation := by
  simp only [List.mem_cons, List.not_mem_nil, or_false] at hop
  rcases hop with rfl | rfl | rfl | rfl
  · exact ⟨gt, .gt, rfl, rfl, asksFor_of_anyCompared (fun _ => rfl) (fun _ _ _ => rfl)
      (by rintro (_ | _ | _) <;> rfl)⟩
  · exact ⟨gte, .gte, rfl, rfl, asksFor_of_anyCompared (fun _ => rfl) (fun _ _ _ => rfl)
      (by rintro (_ | _ | _) <;> rfl)⟩
  · exact ⟨lt, .lt, rfl, rfl, asksFor_of_anyCompared (fun _ => rfl) (fun _ _ _ => rfl)
      (by rintro (_ | _ | _) <;> rfl)⟩
  · exact ⟨lte, .lte, rfl, rfl, asksFor_of_anyCompared (fun _ => rfl) (fun _ _ _ => rfl)
      (by rintro (_ | _ | _) <;> rfl)⟩

end Condition

/-! ## Boundaries -/

namespace BucketStage

/-- In the order of all values, a value lies from one boundary on and below the next, both of which
it can be compared with. -/
def LiesAt (v : Value) (boundaries : List Value) (n : Nat) : Prop :=
  ∃ lower upper, boundaries[n]? = some lower ∧ boundaries[n + 1]? = some upper ∧
    (¬ Incomparable v lower ∧ compare v lower ≠ .lt) ∧
      ¬ Incomparable v upper ∧ compare v upper = .lt

theorem inside_eq_true_iff {v lower upper : Value} : inside v lower upper = true ↔
    (¬ Incomparable v lower ∧ compare v lower ≠ .lt) ∧
      ¬ Incomparable v upper ∧ compare v upper = .lt := by
  rw [inside, Bool.and_eq_true, Value.any_compareSameClass?_iff, Value.any_compareSameClass?_iff]
  cases compare v lower <;> cases compare v upper <;> simp

theorem liesAt_zero {v lower upper : Value} {rest : List Value} :
    LiesAt v (lower :: upper :: rest) 0 ↔ inside v lower upper = true := by
  simp [LiesAt, inside_eq_true_iff]

theorem liesAt_succ {v lower : Value} {rest : List Value} {n : Nat} :
    LiesAt v (lower :: rest) (n + 1) ↔ LiesAt v rest n := by
  simp [LiesAt]

theorem not_liesAt_of_length {v : Value} {boundaries : List Value} {n : Nat}
    (h : boundaries.length ≤ n + 1) : ¬ LiesAt v boundaries n := by
  rintro ⟨lower, upper, -, hupper, -⟩
  rw [List.getElem?_eq_none h] at hupper
  cases hupper

/-- **The search gives the first interval** that the value lies in. -/
theorem locate?_eq_some_iff_liesAt {v : Value} : ∀ {boundaries : List Value} {n : Nat},
    locate? v boundaries = some n ↔ LiesAt v boundaries n ∧ ∀ m < n, ¬ LiesAt v boundaries m
  | [], n => ⟨nofun, fun h => absurd h.1 (not_liesAt_of_length (Nat.zero_le _))⟩
  | [_], n => ⟨nofun, fun h => absurd h.1 (not_liesAt_of_length (Nat.succ_le_succ n.zero_le))⟩
  | lower :: upper :: rest, n => by
      rw [locate?]
      split
      · rename_i hinside
        have hzero : LiesAt v (lower :: upper :: rest) 0 := liesAt_zero.2 hinside
        constructor
        · rintro ⟨⟩
          exact ⟨hzero, fun m hm => absurd hm m.not_lt_zero⟩
        · rintro ⟨-, hfirst⟩
          rw [Nat.eq_zero_of_not_pos fun hpos => hfirst 0 hpos hzero]
      · rename_i hinside
        have hzero : ¬ LiesAt v (lower :: upper :: rest) 0 := fun h => hinside (liesAt_zero.1 h)
        cases n with
        | zero => simp [hzero]
        | succ n =>
            -- The first interval being another one, those behind it are counted from one.
            have hlater : (∀ m < n + 1, ¬ LiesAt v (lower :: upper :: rest) m) ↔
                ∀ m < n, ¬ LiesAt v (upper :: rest) m := by
              rw [Nat.forall_lt_succ_left]
              simp only [liesAt_succ]
              exact and_iff_right hzero
            rw [liesAt_succ, hlater, ← locate?_eq_some_iff_liesAt]
            simp

theorem locate?_eq_none_iff_liesAt {v : Value} {boundaries : List Value} :
    locate? v boundaries = none ↔ ∀ n, ¬ LiesAt v boundaries n := by
  classical
  rw [Option.eq_none_iff_forall_ne_some]
  constructor
  · intro h n hn
    have hexists : ∃ n, LiesAt v boundaries n := ⟨n, hn⟩
    exact h (Nat.find hexists) (locate?_eq_some_iff_liesAt.2
      ⟨Nat.find_spec hexists, fun m hm => Nat.find_min hexists hm⟩)
  · exact fun h n hn => h n (locate?_eq_some_iff_liesAt.1 hn).1

theorem ascending_of_read {j : Json} {cache : PatternCache} {s : BucketStage}
    (h : ((BucketStage.read j : CachedReading BucketStage).run.run cache).1 = .ok s) :
    s.boundaries.IsChain fun a b => ¬ Incomparable a b ∧ compare a b = .lt := by
  refine (gives_read j cache s h).ascending.imp fun a b hab => ?_
  obtain ⟨hcomparable, hlt⟩ := Value.compareSameClass?_eq_some.1 hab
  exact ⟨Value.not_incomparable_iff.2 hcomparable, hlt⟩

end BucketStage

/-! ## Group values that are sorted -/

namespace BucketAutoStage

/-- **The check** passes iff no two group values other than null are incomparable. -/
theorem unordered?_eq_none_iff {keys : List Value} : unordered? keys = none ↔
    (keys.filter fun k => !k.isNull).Pairwise fun a b => ¬ Incomparable a b := by
  unfold unordered?
  cases keys.filter fun k => !k.isNull with
  | nil => simp
  | cons first others =>
      have hfound : (others.find? fun k => (compareSameClass? first k).isNone) = none ↔
          ∀ k ∈ others, ¬ Incomparable first k := by
        simp [← Value.compareSameClass?_eq_none_iff]
      simp only [Option.map_eq_none_iff, hfound, List.pairwise_cons, iff_self_and]
      -- What can be compared with the first value can be compared with each other.
      refine fun hfirst => List.pairwise_of_forall_mem_list fun a ha b hb => ?_
      obtain ⟨hrank, -, hcomparable⟩ := Value.not_incomparable_iff.1 (hfirst a ha)
      obtain ⟨hrank', -, hcomparable'⟩ := Value.not_incomparable_iff.1 (hfirst b hb)
      exact Value.not_incomparable_iff.2 ⟨hrank.symm.trans hrank', hcomparable, hcomparable'⟩

/-- Documents of a run that does not fail, in any order, have group values that compare as they are
sorted. -/
theorem pairwise_of_run {s : BucketAutoStage} {index : Nat} {docs out sorted : List Value}
    (h : (s.run index docs).result = .ok out) (hsorted : sorted.Perm (s.evaluated docs)) :
    (sorted.filter fun d => !(s.keyOf d).isNull).Pairwise fun a b =>
      compareSameClass? (s.keyOf a) (s.keyOf b) = some (s.compareKeys a b) := by
  have hkeys := unordered?_eq_none_iff.1 (rows_of_run h).1
  rw [List.filter_map, List.pairwise_map] at hkeys
  have hperm := hsorted.filter fun d => !(s.keyOf d).isNull
  refine ((hperm.pairwise_iff fun hab hba => hab hba.symm).2 hkeys).imp fun hab => ?_
  exact Value.compareSameClass?_eq_some_compare_iff.2 hab

end BucketAutoStage

/-! ## One order -/

/-- Comparison within a class and the order of all values do not contradict each other, where they
are defined and where they are used together. -/
structure OneOrder : Prop where
  agrees : ∀ a b o, compareSameClass? a b = some o → compare a b = o
  silent : ∀ a b, compareSameClass? a b = none ↔ Incomparable a b
  /-- A range operator of a filter asks for what the relation of the same name says of the order. -/
  filters : ∀ op ∈ ["$gt", "$gte", "$lt", "$lte"], ∃ make relation,
    Condition.comparison? op = some make ∧ Comparison.ofName? op = some relation ∧
      Condition.AsksFor make relation
  /-- Boundaries that are accepted are in the order. -/
  boundaries : ∀ (j : Json) (cache : PatternCache) (s : BucketStage),
    ((BucketStage.read j : CachedReading BucketStage).run.run cache).1 = .ok s →
      s.boundaries.IsChain fun a b => ¬ Incomparable a b ∧ compare a b = .lt
  /-- A value is found in the first interval that it lies in by the order, and in none only if there
  is no such interval. -/
  found : ∀ v boundaries n, BucketStage.locate? v boundaries = some n ↔
    BucketStage.LiesAt v boundaries n ∧ ∀ m < n, ¬ BucketStage.LiesAt v boundaries m
  missed : ∀ v boundaries, BucketStage.locate? v boundaries = none ↔
    ∀ n, ¬ BucketStage.LiesAt v boundaries n
  /-- Group values are accepted iff no two of them other than null are incomparable. -/
  checked : ∀ keys, BucketAutoStage.unordered? keys = none ↔
    (keys.filter fun k => !k.isNull).Pairwise fun a b => ¬ Incomparable a b
  /-- In the order that the stage sorts them in, or any other, they compare as they are sorted. -/
  sorted : ∀ (s : BucketAutoStage) (index : Nat) (docs out sorted : List Value),
    (s.run index docs).result = .ok out → sorted.Perm (s.evaluated docs) →
      (sorted.filter fun d => !(s.keyOf d).isNull).Pairwise fun a b =>
        compareSameClass? (s.keyOf a) (s.keyOf b) = some (s.compareKeys a b)

/-- **One order of values**, for filters, buckets and sorting. -/
theorem oneOrder : OneOrder where
  agrees _ _ _ h := (Value.compareSameClass?_eq_some.1 h).2
  silent _ _ := Value.compareSameClass?_eq_none_iff
  filters _ hop := Condition.asksFor_range hop
  boundaries _ _ _ h := BucketStage.ascending_of_read h
  found _ _ _ := BucketStage.locate?_eq_some_iff_liesAt
  missed _ _ := BucketStage.locate?_eq_none_iff_liesAt
  checked _ := BucketAutoStage.unordered?_eq_none_iff
  sorted _ _ _ _ _ h hsorted := BucketAutoStage.pairwise_of_run h hsorted

/-- A double that is no number is not even compared with itself, yet lies in the order; a filter
finds the one price beside a text, and prices that were sorted compare as they stand. -/
theorem oneOrder_prices :
    let nan := Value.float (Float.ofBits 0x7FF8000000000000)
    compareSameClass? nan nan = none ∧ compare nan (.int 3) = .lt ∧
      (∃ c ∈ [Value.string "free", .int 3], ¬ Incomparable c (.int 2) ∧
        Comparison.gt.holds (compare c (.int 2)) = true) ∧
      (BucketAutoStage.products.filter fun d => !(BucketAutoStage.byPrice.keyOf d).isNull).Pairwise
        fun a b => compareSameClass? (BucketAutoStage.byPrice.keyOf a)
          (BucketAutoStage.byPrice.keyOf b) = some (BucketAutoStage.byPrice.compareKeys a b) := by
  intro nan
  have hnan : nan.IsNaN := ⟨_, rfl, by decide⟩
  have hevaluated : BucketAutoStage.products.Perm
      (BucketAutoStage.byPrice.evaluated BucketAutoStage.products) := by
    have hall : BucketAutoStage.byPrice.evaluated BucketAutoStage.products =
        BucketAutoStage.products := rfl
    rw [hall]
  obtain ⟨make, relation, hmake, hrelation, hasks⟩ := oneOrder.filters "$gt" (by decide)
  cases hmake
  cases hrelation
  exact ⟨(oneOrder.silent nan nan).2 (.nan rfl rfl (.inl hnan)), by decide,
    (hasks (.int 2) [.string "free", .int 3]).1 (by decide),
    oneOrder.sorted _ _ _ _ _ BucketAutoStage.result_run_byPrice hevaluated⟩

end DocStore
