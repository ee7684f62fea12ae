import DocStore.Pipeline.Bucket
import DocStore.Proofs.Value.Comparable

/-!
# Intervals between boundaries

Boundaries in ascending order have half-open intervals between them, which are disjoint and cover
all that lies from the first boundary on and below the last one, so that each such value lies in
exactly one: `Scale.exists_filter_eq_singleton`. Looking through the intervals in order finds it:
`Scale.locate?_eq_some_iff`.
-/

set_option autoImplicit false

namespace DocStore.BucketStage

open Value (compareSameClass? compare Comparable Precise)

/-! ## Intervals -/

/-- The values of one class from a lower end on and below an upper one. -/
structure Interval where
  lower : Value
  upper : Value

/-- Whether a value lies in an interval. -/
def Interval.contains (i : Interval) (v : Value) : Bool := inside v i.lower i.upper

/-- The intervals between neighbouring boundaries. -/
def intervals : List Value → List Interval
  | lower :: upper :: rest => ⟨lower, upper⟩ :: intervals (upper :: rest)
  | _ => []

theorem inside_iff {v lower upper : Value} : inside v lower upper = true ↔
    ((v.rank = lower.rank ∧ v.Comparable ∧ lower.Comparable) ∧ compare v lower ≠ .lt) ∧
      (v.rank = upper.rank ∧ v.Comparable ∧ upper.Comparable) ∧ compare v upper = .lt := by
  rw [inside, Bool.and_eq_true, Option.any_eq_true, Option.any_eq_true]
  simp only [Value.compareSameClass?_eq_some]
  constructor
  · rintro ⟨⟨o, ⟨hlower, rfl⟩, hge⟩, o', ⟨hupper, rfl⟩, hlt⟩
    refine ⟨⟨hlower, fun h => ?_⟩, hupper, by simpa using hlt⟩
    rw [h] at hge
    cases hge
  · rintro ⟨⟨hlower, hge⟩, hupper, hlt⟩
    refine ⟨⟨_, ⟨hlower, rfl⟩, ?_⟩, _, ⟨hupper, rfl⟩, by rw [hlt]; rfl⟩
    cases h : compare v lower <;> simp_all

/-- Looking for an interval goes through them in order. -/
theorem locate?_eq (v : Value) : ∀ boundaries : List Value,
    locate? v boundaries = (intervals boundaries).findIdx? (·.contains v)
  | [] => rfl
  | [_] => rfl
  | lower :: upper :: rest => by
      rw [locate?, intervals, List.findIdx?_cons, locate?_eq v (upper :: rest)]
      rfl

theorem map_lower_intervals : ∀ boundaries : List Value,
    (intervals boundaries).map Interval.lower = boundaries.dropLast
  | [] => rfl
  | [_] => rfl
  | lower :: upper :: rest => congrArg (lower :: ·) (map_lower_intervals (upper :: rest))

theorem mem_of_mem_intervals {i : Interval} : ∀ {boundaries : List Value},
    i ∈ intervals boundaries → i.lower ∈ boundaries ∧ i.upper ∈ boundaries
  | [], h => by cases h
  | [_], h => by cases h
  | lower :: upper :: rest, h => by
      rcases List.mem_cons.1 h with rfl | h
      · exact ⟨List.mem_cons_self, List.mem_cons_of_mem _ List.mem_cons_self⟩
      · exact (mem_of_mem_intervals h).imp (List.mem_cons_of_mem _) (List.mem_cons_of_mem _)

/-! ## Boundaries in ascending order -/

/-- Boundaries of one class, each below those that follow, with precise integers. -/
structure Scale (rank : Nat) (boundaries : List Value) : Prop where
  sameClass : ∀ b ∈ boundaries, b.rank = rank ∧ b.Comparable
  precise : ∀ b ∈ boundaries, b.Precise
  ascending : boundaries.Pairwise fun a b => compare a b = .lt

theorem sameClass_of_chain {first : Value} {rest : List Value}
    (hchain : (first :: rest).IsChain fun a b => compareSameClass? a b = some .lt)
    (hfirst : first.Comparable) : ∀ b ∈ first :: rest, b.rank = first.rank ∧ b.Comparable := by
  induction rest generalizing first with
  | nil => exact List.forall_mem_singleton.2 ⟨rfl, hfirst⟩
  | cons next rest ih =>
      obtain ⟨hlt, htail⟩ := List.isChain_cons_cons.1 hchain
      obtain ⟨⟨hrank, -, hnext⟩, -⟩ := Value.compareSameClass?_eq_some.1 hlt
      refine List.forall_mem_cons.2 ⟨⟨rfl, hfirst⟩, fun b hb => ?_⟩
      rw [hrank]
      exact ih htail hnext b hb

/-- **Boundaries that are accepted make a scale.** -/
theorem exists_scale {boundaries : List Value}
    (hchain : boundaries.IsChain fun a b => compareSameClass? a b = some .lt)
    (htwo : 2 ≤ boundaries.length) (hprecise : ∀ b ∈ boundaries, b.Precise) :
    ∃ rank, Scale rank boundaries := by
  obtain ⟨first, rest, rfl⟩ := List.exists_cons_of_length_pos (Nat.lt_of_lt_of_le Nat.two_pos htwo)
  have hfirst : first.Comparable := by
    cases rest with
    | nil => exact absurd htwo (by simp)
    | cons next rest =>
        have hlink := (List.isChain_cons_cons.1 hchain).1
        exact (Value.compareSameClass?_eq_some.1 hlink).1.2.1
  have hclass := sameClass_of_chain hchain hfirst
  refine ⟨first.rank, hclass, hprecise, ?_⟩
  have horder := Value.preordered_compare (fun b hb => (hclass b hb).2.scalar) hprecise
  exact Sorting.pairwise_lt_of_isChain horder
    (hchain.imp fun a b hab => (Value.compareSameClass?_eq_some.1 hab).2)

section Scale

variable {rank : Nat} {boundaries : List Value}

theorem Scale.tail {first : Value} (h : Scale rank (first :: boundaries)) :
    Scale rank boundaries where
  sameClass b hb := h.sameClass b (List.mem_cons_of_mem first hb)
  precise b hb := h.precise b (List.mem_cons_of_mem first hb)
  ascending := (List.pairwise_cons.1 h.ascending).2

/-- The comparisons of a value with two boundaries. -/
theorem Scale.coherent (h : Scale rank boundaries) {v : Value} (hv : v.Comparable)
    (hprecise : v.Precise) {a b : Value} (ha : a ∈ boundaries) (hb : b ∈ boundaries) :
    Coherent (compare v a) (compare a b) (compare v b) :=
  Value.coherent_of_ranked fun hva hab =>
    Value.coherent_compareRanked_of_precise hv.scalar hva hab
      (by simp [hprecise, h.precise a ha, h.precise b hb])

/-- Of a value of the class of the boundaries, the comparisons decide. -/
theorem Scale.inside_iff (h : Scale rank boundaries) {v lower upper : Value}
    (hlower : lower ∈ boundaries) (hupper : upper ∈ boundaries) : inside v lower upper = true ↔
      (v.rank = rank ∧ v.Comparable) ∧ compare v lower ≠ .lt ∧ compare v upper = .lt := by
  obtain ⟨hlrank, hlcomparable⟩ := h.sameClass lower hlower
  obtain ⟨hurank, hucomparable⟩ := h.sameClass upper hupper
  rw [BucketStage.inside_iff, hlrank, hurank]
  simp only [hlcomparable, hucomparable, and_true]
  tauto

/-- **Intervals are disjoint.** -/
theorem Scale.disjoint (h : Scale rank boundaries) : (intervals boundaries).Pairwise fun i j =>
    ∀ v : Value, v.Precise → i.contains v = true → j.contains v = false := by
  induction boundaries with
  | nil => exact .nil
  | cons lower rest ih =>
      cases rest with
      | nil => exact .nil
      | cons upper rest =>
          refine List.pairwise_cons.2 ⟨fun j hj v hv hfirst => ?_, ih h.tail⟩
          rw [← Bool.not_eq_true]
          intro hcontains
          obtain ⟨hjlower, hjupper⟩ := mem_of_mem_intervals hj
          obtain ⟨⟨-, hcomparable⟩, -, hbelow⟩ :=
            (h.inside_iff List.mem_cons_self (List.mem_cons_of_mem _ List.mem_cons_self)).1 hfirst
          obtain ⟨-, hge, -⟩ := (h.tail.inside_iff hjlower hjupper).1 hcontains
          -- The lower end of a later interval is not below the upper end of the first.
          refine hge ?_
          rcases List.mem_cons.1 hjlower with heq | hlater
          · rwa [heq]
          · have hlt := (List.pairwise_cons.1 h.tail.ascending).1 j.lower hlater
            exact ((h.tail.coherent hcomparable hv List.mem_cons_self hjlower).same
              (hbelow.trans hlt.symm)).trans hbelow

/-! ## From the first boundary to the last one -/

/-- An interval goes from the first boundary to the last one. -/
structure Spans (whole : Interval) (boundaries : List Value) : Prop where
  lower : boundaries.head? = some whole.lower
  upper : boundaries.getLast? = some whole.upper

/-- The interval from the first boundary to the last one. -/
def span (boundaries : List Value) : Interval :=
  ⟨boundaries.headD .null, boundaries.getLastD .null⟩

variable {whole : Interval}

theorem spans_span (h : boundaries ≠ []) : Spans (span boundaries) boundaries := by
  obtain ⟨first, rest, rfl⟩ := List.exists_cons_of_ne_nil h
  refine ⟨rfl, ?_⟩
  rw [span, List.getLastD_cons, List.getLastD_eq_getLast?]
  exact List.getLast?_cons

theorem Spans.mem_lower (h : Spans whole boundaries) : whole.lower ∈ boundaries :=
  List.mem_of_head? h.lower

theorem Spans.mem_upper (h : Spans whole boundaries) : whole.upper ∈ boundaries :=
  List.mem_of_getLast? h.upper

/-- The first boundary is below all others. -/
theorem Scale.eq_or_first_lt (h : Scale rank boundaries) (hwhole : Spans whole boundaries)
    {b : Value} (hb : b ∈ boundaries) : b = whole.lower ∨ compare whole.lower b = .lt := by
  obtain ⟨rest, rfl⟩ := List.head?_eq_some_iff.1 hwhole.lower
  exact (List.mem_cons.1 hb).imp_right ((List.pairwise_cons.1 h.ascending).1 b)

/-- The last boundary is above all others. -/
theorem Scale.eq_or_lt_last (h : Scale rank boundaries) (hwhole : Spans whole boundaries)
    {b : Value} (hb : b ∈ boundaries) : b = whole.upper ∨ compare b whole.upper = .lt := by
  obtain ⟨before, rfl⟩ := List.getLast?_eq_some_iff.1 hwhole.upper
  rcases List.mem_append.1 hb with hb | hb
  · exact .inr ((List.pairwise_append.1 h.ascending).2.2 b hb _ (List.mem_singleton_self _))
  · exact .inl (List.mem_singleton.1 hb)

/-- The lower end of an interval is below the last boundary. -/
theorem Scale.lower_lt_last (h : Scale rank boundaries) (hwhole : Spans whole boundaries)
    {i : Interval} (hi : i ∈ intervals boundaries) : compare i.lower whole.upper = .lt := by
  have hlower : i.lower ∈ boundaries.dropLast := by
    rw [← map_lower_intervals]
    exact List.mem_map_of_mem hi
  obtain ⟨before, rfl⟩ := List.getLast?_eq_some_iff.1 hwhole.upper
  rw [List.dropLast_concat] at hlower
  exact (List.pairwise_append.1 h.ascending).2.2 _ hlower _ (List.mem_singleton_self _)

/-- What lies in an interval lies between the first boundary and the last one. -/
theorem Scale.whole_contains (h : Scale rank boundaries) (hwhole : Spans whole boundaries)
    {v : Value} (hv : v.Precise) {i : Interval} (hi : i ∈ intervals boundaries)
    (hcontains : i.contains v = true) : whole.contains v = true := by
  obtain ⟨hlower, hupper⟩ := mem_of_mem_intervals hi
  obtain ⟨⟨hrank, hcomparable⟩, hge, hlt⟩ := (h.inside_iff hlower hupper).1 hcontains
  refine (h.inside_iff hwhole.mem_lower hwhole.mem_upper).2
    ⟨⟨hrank, hcomparable⟩, fun hbelow => ?_, ?_⟩
  · rcases h.eq_or_first_lt hwhole hlower with heq | hfirst
    · exact hge (heq ▸ hbelow)
    · exact hge (((h.coherent hcomparable hv hwhole.mem_lower hlower).same
        (hbelow.trans hfirst.symm)).trans hbelow)
  · rcases h.eq_or_lt_last hwhole hupper with heq | hend
    · exact heq ▸ hlt
    · exact ((h.coherent hcomparable hv hupper hwhole.mem_upper).same
        (hlt.trans hend.symm)).trans hlt

/-- **Intervals cover the whole range.** -/
theorem Scale.exists_contains (h : Scale rank boundaries) (hwhole : Spans whole boundaries)
    {v : Value} (hcontains : whole.contains v = true) :
    ∃ i ∈ intervals boundaries, i.contains v = true := by
  induction boundaries generalizing whole with
  | nil => cases hwhole.lower
  | cons first rest ih =>
      -- The range of the other boundaries starts at the second one, and ends where this one does.
      obtain ⟨hclass, hge, hlt⟩ := (h.inside_iff hwhole.mem_lower hwhole.mem_upper).1 hcontains
      obtain rfl : first = whole.lower := Option.some.inj hwhole.lower
      cases rest with
      | nil =>
          rw [← List.mem_singleton.1 hwhole.mem_upper] at hge
          exact absurd hlt hge
      | cons next rest =>
          have hnext : next ∈ whole.lower :: next :: rest :=
            List.mem_cons_of_mem _ List.mem_cons_self
          by_cases hbelow : compare v next = .lt
          · exact ⟨_, List.mem_cons_self,
              (h.inside_iff List.mem_cons_self hnext).2 ⟨hclass, hge, hbelow⟩⟩
          · -- A value that is not below the second boundary lies in one of the other intervals.
            have htail : Spans ⟨next, whole.upper⟩ (next :: rest) :=
              ⟨rfl, List.getLast?_cons_cons.symm.trans hwhole.upper⟩
            obtain ⟨i, hi, hi'⟩ := ih h.tail htail
              ((h.inside_iff hnext hwhole.mem_upper).2 ⟨hclass, hbelow, hlt⟩)
            exact ⟨i, List.mem_cons_of_mem _ hi, hi'⟩

/-- **One interval.** A value between the first boundary and the last one lies in exactly one
interval. -/
theorem Scale.exists_filter_eq_singleton (h : Scale rank boundaries)
    (hwhole : Spans whole boundaries) {v : Value} (hv : v.Precise)
    (hcontains : whole.contains v = true) :
    ∃ i, (intervals boundaries).filter (·.contains v) = [i] := by
  obtain ⟨i, hi, hiv⟩ := h.exists_contains hwhole hcontains
  obtain ⟨before, after, hsplit⟩ := List.append_of_mem hi
  have hdisjoint := h.disjoint
  rw [hsplit, List.pairwise_append, List.pairwise_cons] at hdisjoint
  have hbefore : before.filter (·.contains v) = [] :=
    List.filter_eq_nil_iff.2 fun j hj hjv => by
      have hnot := hdisjoint.2.2 j hj i List.mem_cons_self v hv hjv
      rw [hiv] at hnot
      cases hnot
  have hafter : after.filter (·.contains v) = [] :=
    List.filter_eq_nil_iff.2 fun j hj => by simp [hdisjoint.2.1.1 j hj v hv hiv]
  refine ⟨i, ?_⟩
  rw [hsplit, List.filter_append, List.filter_cons, if_pos hiv, hbefore, hafter, List.nil_append]

/-- Any other value lies in no interval. -/
theorem Scale.filter_eq_nil (h : Scale rank boundaries) (hwhole : Spans whole boundaries)
    {v : Value} (hv : v.Precise) (hcontains : whole.contains v = false) :
    (intervals boundaries).filter (·.contains v) = [] := by
  refine List.filter_eq_nil_iff.2 fun i hi hiv => ?_
  rw [h.whole_contains hwhole hv hi hiv] at hcontains
  cases hcontains

/-! ## The search -/

/-- **The search finds the interval that holds a value.** -/
theorem Scale.locate?_eq_some_iff (h : Scale rank boundaries) {v : Value} (hv : v.Precise)
    {n : Nat} {i : Interval} (hi : (intervals boundaries)[n]? = some i) :
    locate? v boundaries = some n ↔ i.contains v = true := by
  obtain ⟨hn, rfl⟩ := List.getElem?_eq_some_iff.1 hi
  rw [locate?_eq, List.findIdx?_eq_some_iff_getElem]
  constructor
  · rintro ⟨_, hcontains, -⟩
    exact hcontains
  · refine fun hcontains => ⟨hn, hcontains, fun m hm hm' => ?_⟩
    have hnot := List.pairwise_iff_getElem.1 h.disjoint m n _ hn hm v hv hm'
    rw [hcontains] at hnot
    cases hnot

theorem Scale.locate?_eq_none_iff (h : Scale rank boundaries) (hwhole : Spans whole boundaries)
    {v : Value} (hv : v.Precise) : locate? v boundaries = none ↔ whole.contains v = false := by
  rw [locate?_eq, List.findIdx?_eq_none_iff]
  constructor
  · intro hnone
    rw [← Bool.not_eq_true]
    intro hcontains
    obtain ⟨i, hi, hiv⟩ := h.exists_contains hwhole hcontains
    rw [hnone i hi] at hiv
    cases hiv
  · intro hnot i hi
    rw [← Bool.not_eq_true]
    exact List.filter_eq_nil_iff.1 (h.filter_eq_nil hwhole hv hnot) i hi

/-! ## Values that are equal to boundaries -/

/-- What is equal to the lower end of an interval lies between the first boundary and the last. -/
theorem Scale.whole_contains_of_equal (h : Scale rank boundaries) (hwhole : Spans whole boundaries)
    {i : Interval} (hi : i ∈ intervals boundaries) {v : Value}
    (hequal : Value.equal i.lower v = true) : whole.contains v = true := by
  have hlower := (mem_of_mem_intervals hi).1
  obtain ⟨hrank, hcomparable⟩ := h.sameClass _ hlower
  obtain ⟨hvrank, hvcomparable, hplace⟩ := Value.compare_of_equal hequal hcomparable
  have halike {b : Value} (hb : b ∈ boundaries) (hne : compare i.lower b ≠ .eq) :
      compare v b = compare i.lower b :=
    Value.compare_eq_of_equal hequal hcomparable (h.precise _ hlower) (h.precise b hb) hne
  have hbelow := h.lower_lt_last hwhole hi
  refine (h.inside_iff hwhole.mem_lower hwhole.mem_upper).2
    ⟨⟨hvrank.symm.trans hrank, hvcomparable⟩, fun hlt => ?_, ?_⟩
  · rcases h.eq_or_first_lt hwhole hlower with heq | hfirst
    · rw [← heq, ← Value.compare_swap, hplace] at hlt
      cases hlt
    · have habove : compare i.lower whole.lower = .gt := by
        rw [← Value.compare_swap, hfirst]
        rfl
      rw [halike hwhole.mem_lower (by simp [habove]), habove] at hlt
      cases hlt
  · rw [halike hwhole.mem_upper (by simp [hbelow]), hbelow]

end Scale

end DocStore.BucketStage
