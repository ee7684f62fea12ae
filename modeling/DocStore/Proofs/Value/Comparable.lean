import DocStore.Proofs.Query.Sorting
import DocStore.Proofs.Value.Aligned

/-!
# Values of one class

`Value.compareSameClass?` compares scalars of one class that are not NaN, and agrees there with the
order of all values. That order is transitive on scalars if their integers are `Precise`, no greater
than 2^53: no other integer is rounded to the double that such an integer is. Values that are not
compared are `Incomparable`, for one of three reasons.
-/

set_option autoImplicit false

namespace DocStore

namespace Value

/-! ## Comparable values -/

/-- A scalar that is not NaN. -/
structure Comparable (v : Value) : Prop where
  scalar : v.isContainer = false
  definite : DefiniteScalar v

theorem compareFloats?_iff {f g : Float} {o : Ordering} : Binary64.compare? f g = some o ↔
    (Binary64.isNaN f = false ∧ Binary64.isNaN g = false) ∧ Binary64.compareTotal f g = o := by
  rw [Binary64.compare?, Binary64.compareTotal]
  cases Binary64.isNaN f <;> cases Binary64.isNaN g <;> simp

/-- **Comparison within a class** is the order of comparable values of one rank. -/
theorem compareSameClass?_eq_some {a b : Value} {o : Ordering} :
    compareSameClass? a b = some o ↔
      (a.rank = b.rank ∧ a.Comparable ∧ b.Comparable) ∧ compare a b = o := by
  have hcomparable (v : Value) : v.Comparable ↔ v.isContainer = false ∧ DefiniteScalar v :=
    ⟨fun h => ⟨h.scalar, h.definite⟩, fun h => ⟨h.1, h.2⟩⟩
  rw [hcomparable, hcomparable, compare_eq]
  cases a <;> cases b <;>
    simp [compareSameClass?, rank, isContainer, DefiniteScalar, compareRanked, compareNumbers,
      compareFloats?_iff, Binary64.isNaN_ofInt64]

theorem isSome_compareSameClass? {a b : Value} :
    (compareSameClass? a b).isSome = true ↔ a.rank = b.rank ∧ a.Comparable ∧ b.Comparable := by
  rw [Option.isSome_iff_exists]
  simp [compareSameClass?_eq_some]

/-! ## Precise integers -/

/-- A value that is no integer, or one that a double holds exactly. -/
def Precise : Value → Prop
  | int n => n.toInt.natAbs ≤ 2 ^ 53
  | _ => True

end Value

namespace Binary64

theorem scaled_ofInt_ne_of_neg_of_pos {m n : Int} (hm : m.natAbs < 2 ^ 64) (hn : n.natAbs < 2 ^ 64)
    (hneg : m < 0) (hpos : 0 < n) : scaled (ofInt m) ≠ scaled (ofInt n) := by
  intro heq
  have hzero : (0 : Int).natAbs < 2 ^ 64 := by decide
  have hlow := scaled_ofInt_le hm hzero hneg.le
  have hhigh := scaled_ofInt_le hzero hn hpos.le
  -- Zero, which lies between them, would be rounded to the same double.
  have hm0 : m = 0 := eq_of_scaled_ofInt_eq hm (by decide) (by omega)
  omega

/-- Of two integers that a double holds exactly, each is rounded to another double. -/
theorem eq_of_scaled_ofInt_eq_of_le {m n : Int} (hm : m.natAbs ≤ 2 ^ 53) (hn : n.natAbs ≤ 2 ^ 53)
    (h : scaled (ofInt m) = scaled (ofInt n)) : m = n := by
  have hm64 : m.natAbs < 2 ^ 64 := by omega
  have hn64 : n.natAbs < 2 ^ 64 := by omega
  by_cases hmlt : m.natAbs < 2 ^ 53
  · exact (eq_of_scaled_ofInt_eq hn64 hmlt h.symm).symm
  · by_cases hnlt : n.natAbs < 2 ^ 53
    · exact eq_of_scaled_ofInt_eq hm64 hnlt h
    · -- Both are ends of the range, which differ in their signs.
      rcases Int.lt_trichotomy m n with hlt | heq | hgt
      · exact absurd h (scaled_ofInt_ne_of_neg_of_pos hm64 hn64 (by omega) (by omega))
      · exact heq
      · exact absurd h.symm (scaled_ofInt_ne_of_neg_of_pos hn64 hm64 (by omega) (by omega))

end Binary64

namespace Value

theorem separated_of_precise {vs : List Value} (h : ∀ v ∈ vs, v.Precise) : Separated vs := by
  intro m n f hm hn _ hmf hnf
  have hscaled {k : Int64} (hk : Binary64.equal (Binary64.ofInt64 k) f = true) :
      Binary64.scaled (Binary64.ofInt64 k) = Binary64.scaled f := by
    simp only [Binary64.equal, Bool.and_eq_true, beq_iff_eq] at hk
    exact hk.2
  exact Int64.toInt_inj.1 (Binary64.eq_of_scaled_ofInt_eq_of_le (h _ hm) (h _ hn)
    ((hscaled hmf).trans (hscaled hnf).symm))

theorem leaves_of_scalar {v : Value} (h : v.isContainer = false) : leaves v = [v] := by
  cases v <;> first | rfl | cases h

theorem isContainer_eq_of_rank {a b : Value} (h : a.rank = b.rank) :
    a.isContainer = b.isContainer := by
  cases a <;> cases b <;> first | rfl | cases h

/-- Scalars of one rank with precise integers. -/
theorem coherent_compareRanked_of_precise {a b c : Value} (hscalar : a.isContainer = false)
    (hab : a.rank = b.rank) (hbc : b.rank = c.rank) (h : ∀ v ∈ [a, b, c], v.Precise) :
    Coherent (compareRanked a b) (compareRanked b c) (compareRanked a c) := by
  have hb := (isContainer_eq_of_rank hab).symm.trans hscalar
  have hc := (isContainer_eq_of_rank hbc).symm.trans hb
  refine coherent_compareRanked a b c hab hbc ?_
  rw [leaves_of_scalar hscalar, leaves_of_scalar hb, leaves_of_scalar hc]
  exact separated_of_precise h

/-- **The order is that of a preorder** among scalars with precise integers. -/
theorem preordered_compare {vs : List Value} (hscalar : ∀ v ∈ vs, v.isContainer = false)
    (h : ∀ v ∈ vs, v.Precise) : Sorting.Preordered compare vs where
  swap a _ b _ := compare_swap a b
  coherent a ha b hb c hc := coherent_of_ranked fun hab hbc =>
    coherent_compareRanked_of_precise (hscalar a ha) hab hbc (by simp [h a ha, h b hb, h c hc])

/-! ## Equal values -/

theorem definite_of_equal {a b : Value} (h : equal a b = true) (hb : b.isContainer = false) :
    DefiniteScalar b := by
  cases b with
  | float g =>
      cases a <;> simp_all [equal, equalNumbers, Binary64.equal, DefiniteScalar]
  | array items => cases hb
  | object fields => cases hb
  | _ => trivial

/-- What is equal to a comparable value is comparable with it, and in the same place. -/
theorem compare_of_equal {a b : Value} (h : equal a b = true) (ha : a.Comparable) :
    a.rank = b.rank ∧ b.Comparable ∧ compare a b = .eq := by
  have haligned : aligned a b = true := by
    cases a with
    | array items => cases ha.scalar
    | object fields => cases ha.scalar
    | _ => rfl
  have heq : compare a b = .eq := (compare_scalar_iff ha.scalar ha.definite).2 ⟨h, haligned⟩
  have hrank : a.rank = b.rank := by
    rw [compare_eq, Ordering.then_eq_eq, compare_eq_iff_eq] at heq
    exact heq.1
  have hscalar : b.isContainer = false := (isContainer_eq_of_rank hrank).symm.trans ha.scalar
  exact ⟨hrank, ⟨hscalar, definite_of_equal h hscalar⟩, heq⟩

/-- Two precise numbers that differ are rounded to different doubles. -/
theorem compareNumbers_eq_of_precise {a b : Value} (ha : a.rank = 1) (hb : b.rank = 1)
    (hpa : a.Precise) (hpb : b.Precise) :
    compareNumbers a b = Binary64.compareTotal a.nearest b.nearest := by
  rw [compareNumbers_eq ha hb]
  cases htotal : Binary64.compareTotal a.nearest b.nearest with
  | lt => rfl
  | gt => rfl
  | eq =>
      rcases int_or_float_of_rank ha with ⟨m, rfl⟩ | ⟨f, rfl⟩ <;>
        rcases int_or_float_of_rank hb with ⟨n, rfl⟩ | ⟨g, rfl⟩
      · have hscaled :
            Binary64.scaled (Binary64.ofInt64 m) = Binary64.scaled (Binary64.ofInt64 n) := by
          simpa [Binary64.compareTotal, nearest, Binary64.isNaN_ofInt64] using htotal
        have hmn := Binary64.eq_of_scaled_ofInt_eq_of_le hpa hpb hscaled
        exact compare_eq_iff_eq.2 hmn
      all_goals rfl

theorem compareTotal_of_equal {f g : Float} (h : Binary64.equal f g = true) (k : Float) :
    Binary64.compareTotal g k = Binary64.compareTotal f k := by
  obtain ⟨⟨hf, hg⟩, hscaled⟩ : (Binary64.isNaN f = false ∧ Binary64.isNaN g = false) ∧
      Binary64.scaled f = Binary64.scaled g := by
    simpa [Binary64.equal] using h
  rw [Binary64.compareTotal, Binary64.compareTotal, hf, hg, hscaled]

/-- Equal numbers are rounded to equal doubles. -/
theorem equal_nearest {a b : Value} (h : equal a b = true) (ha : a.rank = 1) (hb : b.rank = 1) :
    Binary64.equal a.nearest b.nearest = true := by
  rcases int_or_float_of_rank ha with ⟨m, rfl⟩ | ⟨f, rfl⟩ <;>
    rcases int_or_float_of_rank hb with ⟨n, rfl⟩ | ⟨g, rfl⟩
  · have hmn : m = n := by simpa [equal, equalNumbers] using h
    simp [hmn, nearest, Binary64.equal, Binary64.isNaN_ofInt64]
  all_goals simpa [equal, equalNumbers, nearest] using h

/-- Equal scalars that are no numbers are the same. -/
theorem eq_of_equal {a b : Value} (h : equal a b = true) (ha : a.isContainer = false)
    (hnumber : a.rank ≠ 1) : a = b := by
  cases a <;> cases b <;> simp_all [equal, equalNumbers, isContainer, rank]

/-- **Equal values compare alike** with a precise value in another place. -/
theorem compare_eq_of_equal {a b c : Value} (h : equal a b = true) (ha : a.Comparable)
    (hpa : a.Precise) (hpc : c.Precise) (hne : compare a c ≠ .eq) : compare b c = compare a c := by
  by_cases hnumber : a.rank = 1
  · obtain ⟨hrank, -, -⟩ := compare_of_equal h ha
    have hbnumber : b.rank = 1 := hrank.symm.trans hnumber
    rw [compare_eq, hnumber] at hne
    rw [compare_eq, compare_eq a, hbnumber, hnumber]
    by_cases hc : c.rank = 1
    · -- Of the doubles that stand for them, those of equal numbers are equal.
      have hnumbers (v : Value) (hv : v.rank = 1) :
          (Ord.compare 1 c.rank).then (compareRanked v c) = compareNumbers v c := by
        rw [hc, compareRanked_eq_numbers hv]
        rfl
      rw [hnumbers a hnumber, compareNumbers_eq_of_precise hnumber hc hpa hpc] at hne
      rw [hnumbers a hnumber, hnumbers b hbnumber, compareNumbers_eq_of_precise hnumber hc hpa hpc,
        compareNumbers_eq hbnumber hc, compareTotal_of_equal (equal_nearest h hnumber hbnumber)]
      cases htotal : Binary64.compareTotal a.nearest c.nearest <;> simp_all
    · have hdiffer : Ord.compare 1 c.rank ≠ .eq := fun heq => hc (compare_eq_iff_eq.1 heq).symm
      cases hcompare : Ord.compare 1 c.rank <;> simp_all
  · rw [eq_of_equal h ha.scalar hnumber]

/-! ## Incomparable values -/

/-- Two values that comparison within a class is silent about. -/
inductive Incomparable : Value → Value → Prop where
  | classes {a b : Value} (h : a.rank ≠ b.rank) : Incomparable a b
  | arrays (as bs : List Value) : Incomparable (array as) (array bs)
  | objects (m n : List (String × Value)) : Incomparable (object m) (object n)
  | nan {a b : Value} (ha : a.isNumber = true) (hb : b.isNumber = true)
      (h : a.IsNaN ∨ b.IsNaN) : Incomparable a b

theorem comparable_iff {v : Value} : v.Comparable ↔ v.isContainer = false ∧ ¬ v.IsNaN := by
  rw [← definiteScalar_iff]
  exact ⟨fun h => ⟨h.scalar, h.definite⟩, fun h => ⟨h.1, h.2⟩⟩

theorem isNumber_eq_of_rank {a b : Value} (h : a.rank = b.rank) : a.isNumber = b.isNumber := by
  cases a <;> cases b <;> first | rfl | cases h

theorem incomparable_of_nan {a b : Value} (hrank : a.rank = b.rank) (h : a.IsNaN ∨ b.IsNaN) :
    Incomparable a b := by
  have hnumber : a.isNumber = true := by
    rcases h with ⟨f, rfl, -⟩ | ⟨f, rfl, -⟩
    · rfl
    · exact isNumber_eq_of_rank hrank
  exact .nan hnumber (isNumber_eq_of_rank hrank ▸ hnumber) h

theorem incomparable_of_isContainer {a b : Value} (hrank : a.rank = b.rank)
    (h : a.isContainer = true) : Incomparable a b := by
  cases a with
  | array as =>
      cases b with
      | array bs => exact .arrays as bs
      | _ => cases hrank
  | object m =>
      cases b with
      | object n => exact .objects m n
      | _ => cases hrank
  | _ => cases h

theorem not_incomparable_iff {a b : Value} :
    ¬ Incomparable a b ↔ a.rank = b.rank ∧ a.Comparable ∧ b.Comparable := by
  rw [comparable_iff, comparable_iff]
  constructor
  · intro h
    have hrank : a.rank = b.rank := by
      by_contra hne
      exact h (.classes hne)
    have hscalar : a.isContainer = false := by
      rw [← Bool.not_eq_true]
      exact fun hcontainer => h (incomparable_of_isContainer hrank hcontainer)
    exact ⟨hrank, ⟨hscalar, fun ha => h (incomparable_of_nan hrank (.inl ha))⟩,
      (isContainer_eq_of_rank hrank).symm.trans hscalar,
      fun hb => h (incomparable_of_nan hrank (.inr hb))⟩
  · rintro ⟨hrank, ⟨hscalar, hna⟩, -, hnb⟩ (h | _ | _ | ⟨-, -, h | h⟩)
    · exact h hrank
    · cases hscalar
    · cases hscalar
    · exact hna h
    · exact hnb h

/-- **Comparison within a class is silent** about incomparable values only. -/
theorem compareSameClass?_eq_none_iff {a b : Value} :
    compareSameClass? a b = none ↔ Incomparable a b := by
  rw [← Option.not_isSome_iff_eq_none, isSome_compareSameClass?, ← not_incomparable_iff, not_not]

/-- **Where it is not silent** it is the order of all values. -/
theorem compareSameClass?_eq_some_compare_iff {a b : Value} :
    compareSameClass? a b = some (compare a b) ↔ ¬ Incomparable a b := by
  rw [compareSameClass?_eq_some, not_incomparable_iff]
  exact and_iff_left rfl

/-- What is asked of a comparison within a class is asked of the order. -/
theorem any_compareSameClass?_iff {a b : Value} {accept : Ordering → Bool} :
    (compareSameClass? a b).any accept = true ↔
      ¬ Incomparable a b ∧ accept (compare a b) = true := by
  by_cases h : Incomparable a b
  · simp [compareSameClass?_eq_none_iff.2 h, h]
  · simp [compareSameClass?_eq_some_compare_iff.2 h, h]

theorem Incomparable.symm {a b : Value} (h : Incomparable a b) : Incomparable b a := by
  cases h with
  | classes h => exact .classes h.symm
  | arrays as bs => exact .arrays bs as
  | objects m n => exact .objects n m
  | nan ha hb h => exact .nan hb ha h.symm

end Value

end DocStore
