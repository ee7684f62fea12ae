import DocStore.Proofs.Filter.Cached
import DocStore.Proofs.Value.Comparable

/-!
# Operators on a field

What the operators of a field mean for each other: a bound that is included is a strict one or
equality, membership is equality with one of several values, and the negated operators ask for the
field besides. Several operators are read one by one, each of them as if it stood alone
(`Condition.readOperators_alone`): only a pattern looks at another one, its options.
-/

set_option autoImplicit false

namespace DocStore

/-! ## Meaning -/

theorem Binary64.compare?_eq_eq_iff {f g : Float} :
    compare? f g = some .eq ↔ equal f g = true := by
  rw [Value.compareFloats?_iff]
  constructor
  · rintro ⟨⟨hf, -⟩, heq⟩
    exact (compareTotal_eq_iff hf).1 heq
  · intro h
    obtain ⟨hf, hg, -⟩ := equal_iff.1 h
    exact ⟨⟨hf, hg⟩, (compareTotal_eq_iff hf).2 h⟩

/-- Beside a scalar, equality and comparison within a class agree. -/
theorem Value.compareSameClass?_eq_eq_iff {a b : Value} (hb : b.isContainer = false) :
    compareSameClass? a b = some .eq ↔ equal a b = true := by
  cases b with
  | array items => cases hb
  | object fields => cases hb
  | _ =>
      cases a <;> simp [compareSameClass?, compareInts, equal, equalNumbers,
        Binary64.compare?_eq_eq_iff, Int64.toInt_inj, Instant.compare_eq_iff]

namespace Condition

variable {ts : List Value} {v : Value}

theorem anyCandidate_iff {test : Value → Bool} :
    anyCandidate test ts = true ↔ ∃ c ∈ ts.flatMap candidates, test c = true := by
  simp only [anyCandidate, List.any_eq_true, List.mem_flatMap]
  tauto

theorem anyCandidate_or {p q : Value → Bool} :
    anyCandidate (fun c => p c || q c) ts = (anyCandidate p ts || anyCandidate q ts) := by
  rw [Bool.eq_iff_iff, Bool.or_eq_true]
  simp only [anyCandidate_iff, Bool.or_eq_true, and_or_left, exists_or]

/-- Of two orders that are accepted, one of them being that of equal scalars. -/
theorem anyCompared_or_equal {accept strict : Ordering → Bool} (hv : v.isContainer = false)
    (haccept : ∀ o, accept o = (strict o || o == .eq)) :
    anyCompared accept v ts = (anyCompared strict v ts || anyCandidate (Value.equal · v) ts) := by
  have hequal (c : Value) : Value.equal c v = (Value.compareSameClass? c v).any (· == .eq) := by
    rw [Bool.eq_iff_iff, ← Value.compareSameClass?_eq_eq_iff hv]
    cases Value.compareSameClass? c v <;> simp
  rw [anyCompared, anyCompared, ← anyCandidate_or]
  refine congrArg (anyCandidate · ts) (funext fun c => ?_)
  rw [hequal]
  cases Value.compareSameClass? c v with
  | none => rfl
  | some o => exact haccept o

theorem holds_lte (hv : v.isContainer = false) :
    (lte v).holds ts = ((lt v).holds ts || (eq v).holds ts) := by
  cases ts with
  | nil => rfl
  | cons t rest => exact anyCompared_or_equal hv (by rintro (_ | _ | _) <;> rfl)

theorem holds_gte (hv : v.isContainer = false) :
    (gte v).holds ts = ((gt v).holds ts || (eq v).holds ts) := by
  cases ts with
  | nil => rfl
  | cons t rest => exact anyCompared_or_equal hv (by rintro (_ | _ | _) <;> rfl)

/-- Where it does not matter which side equality is read from, one of several values is among the
candidates iff one of the candidates is among the values. -/
theorem holds_oneOf {vs : List Value}
    (hsymm : ∀ c ∈ ts.flatMap candidates, ∀ v ∈ vs, Value.equal v c = Value.equal c v) :
    (oneOf vs).holds ts = vs.any fun v => (eq v).holds ts := by
  cases ts with
  | nil => simp [holds]
  | cons t rest =>
      have heq (v : Value) : (eq v).holds (t :: rest) = true ↔
          ∃ c ∈ (t :: rest).flatMap candidates, Value.equal c v = true := anyCandidate_iff
      have hone : (oneOf vs).holds (t :: rest) = true ↔
          ∃ c ∈ (t :: rest).flatMap candidates, vs.any (Value.equal · c) = true :=
        anyCandidate_iff
      rw [Bool.eq_iff_iff, hone, List.any_eq_true]
      simp only [heq, List.any_eq_true]
      constructor
      · rintro ⟨c, hc, v, hv, h⟩
        exact ⟨v, hv, c, hc, hsymm c hc v hv ▸ h⟩
      · rintro ⟨v, hv, c, hc, h⟩
        exact ⟨c, hc, v, hv, (hsymm c hc v hv).trans h⟩

theorem holds_ne : (ne v).holds ts = ((present true).holds ts && !(eq v).holds ts) := by
  cases ts <;> rfl

theorem holds_noneOf {vs : List Value} :
    (noneOf vs).holds ts = ((present true).holds ts && !(oneOf vs).holds ts) := by
  cases ts <;> rfl

/-! ## Operators alone -/

/-- An operator of a field without the others; the options of a pattern go with its source. -/
def alone (ops : Fields Json) (e : String × Json) : Fields Json :=
  if e.1 = "$regex" then e :: ops.filter (·.1 = "$options") else [e]

theorem mem_alone_self (ops : Fields Json) (e : String × Json) : e ∈ alone ops e := by
  rw [alone]
  split <;> simp

theorem eq_or_options_of_mem_alone {ops : Fields Json} {d e : String × Json}
    (h : d ∈ alone ops e) : d = e ∨ d.1 = "$options" := by
  rw [alone] at h
  split at h
  · rcases List.mem_cons.1 h with rfl | h
    · exact .inl rfl
    · exact .inr (by simpa using (List.mem_filter.1 h).2)
  · exact .inl (List.mem_singleton.1 h)

section Reading

variable (m : Type → Type) [Reading m] {field op : String} {ops others : Fields Json} {j : Json}

/-- Of the other operators, only the options of a pattern are looked at. -/
theorem readOperator_congr (h : Fields.get? ops "$options" = Fields.get? others "$options") :
    (readOperator field ops op j : m _) = readOperator field others op j := by
  unfold readOperator readRegex
  rw [h]

theorem readOperator_congr_of_ne (h : op ≠ "$regex") :
    (readOperator field ops op j : m _) = readOperator field others op j := by
  unfold readOperator
  split
  · rfl
  · split
    · rfl
    · split
      · rfl
      · rfl
      · exact absurd rfl h
      · rfl
      · rfl

theorem readOperator_alone {e : String × Json} :
    (readOperator field (alone ops e) e.1 e.2 : m _) = readOperator field ops e.1 e.2 := by
  by_cases h : e.1 = "$regex"
  · have hne : e.1 ≠ "$options" := by
      rw [h]
      decide
    have hoptions : Fields.get? (alone ops e) "$options" = Fields.get? ops "$options" := by
      rw [alone, if_pos h, Fields.get?, if_neg hne, Fields.get?_filter]
    exact readOperator_congr m hoptions
  · exact readOperator_congr_of_ne m h

theorem readOperator_options :
    (readOperator field ops "$options" j : m _) = pure none := by
  have hcomparison : comparison? "$options" = none := rfl
  have hmembership : membership? "$options" = none := rfl
  unfold readOperator
  rw [hcomparison, hmembership]
  rfl

theorem readOperator_comparison {make : Value → Condition} (h : comparison? op = some make) :
    (readOperator field ops op j : m _) = pure (some (make (Value.ofJson j))) := by
  unfold readOperator
  rw [h]

variable [LawfulMonad m]

theorem readOperator_membership {make : List Value → Condition} {js : List Json}
    (hcomparison : comparison? op = none) (h : membership? op = some make) :
    (readOperator field ops op (.array js) : m _) =
      pure (some (make (Value.ofJsonItems js))) := by
  unfold readOperator
  rw [hcomparison, h]
  exact pure_bind _ _

theorem readOperator_exists (flag : Bool) :
    (readOperator field ops "$exists" (.bool flag) : m _) = pure (some (present flag)) := by
  have hcomparison : comparison? "$exists" = none := rfl
  have hmembership : membership? "$exists" = none := rfl
  unfold readOperator
  rw [hcomparison, hmembership]
  exact pure_bind _ _

theorem readEach_options {rest : List (String × Json)} (h : ∀ e ∈ rest, e.1 = "$options") :
    (readEach field ops rest : m _) = pure [] := by
  induction rest with
  | nil => rfl
  | cons e rest ih =>
      obtain ⟨k, v⟩ := e
      obtain ⟨rfl, hrest⟩ := List.forall_mem_cons.1 h
      rw [readEach, readOperator_options, ih hrest]
      simp

/-- One operator is read as its condition, with options beside it if it is a pattern. -/
theorem readOperators_cons {rest : List (String × Json)} (hop : op ≠ "$options")
    (hrest : ∀ e ∈ rest, e.1 = "$options") (hregex : op = "$regex" ∨ rest = []) :
    (readOperators field ((op, j) :: rest) : m _) =
      Option.toList <$> readOperator field ((op, j) :: rest) op j := by
  have hoptions : (Fields.contains ((op, j) :: rest) "$options" &&
      !Fields.contains ((op, j) :: rest) "$regex") = false := by
    rcases hregex with rfl | rfl
    · simp [Fields.contains, Fields.get?]
    · simp [Fields.contains, Fields.get?, hop]
  rw [readOperators, readEach, readEach_options m hrest]
  simp [hoptions]

theorem readOperators_alone {e : String × Json} (h : e.1 ≠ "$options") :
    (readOperators field (alone ops e) : m _) =
      Option.toList <$> readOperator field ops e.1 e.2 := by
  rw [← readOperator_alone, alone]
  split
  · rename_i hregex
    exact readOperators_cons m h (by simp) (.inl hregex)
  · exact readOperators_cons m h (List.forall_mem_nil _) (.inr rfl)

end Reading

/-! ## Operators one by one -/

section Obtained

variable {field : String} {ops : Fields Json} {rest : List (String × Json)} {cs : List Condition}

theorem obtains_readEach_cons {e : String × Json}
    (h : Obtains (readEach field ops (e :: rest)) cs) :
    ∃ now later, Obtains (readOperator field ops e.1 e.2) now ∧
      Obtains (readEach field ops rest) later ∧ cs = now.toList ++ later := by
  obtain ⟨now, hnow, h⟩ := (steady_readOperator field ops e.1 e.2).of_obtains_bind h
  obtain ⟨later, hlater, h⟩ := (steady_readEach field ops rest).of_obtains_bind h
  exact ⟨now, later, hnow, hlater, obtains_pure_iff.1 h⟩

/-- What is read from several operators consists of what is read from each. -/
theorem forall_iff_of_obtains_readEach (P : Condition → Prop)
    (h : Obtains (readEach field ops rest) cs) :
    (∀ c ∈ cs, P c) ↔
      ∀ e ∈ rest, ∃ o, Obtains (readOperator field ops e.1 e.2) o ∧ ∀ c ∈ o.toList, P c := by
  induction rest generalizing cs with
  | nil =>
      obtain rfl := obtains_pure_iff.1 h
      simp
  | cons e rest ih =>
      obtain ⟨now, later, hnow, hlater, rfl⟩ := obtains_readEach_cons h
      have hunique : (∃ o, Obtains (readOperator field ops e.1 e.2) o ∧ ∀ c ∈ o.toList, P c) ↔
          ∀ c ∈ now.toList, P c := by
        constructor
        · rintro ⟨o, ho, hP⟩
          rwa [(steady_readOperator field ops e.1 e.2).obtains_unique hnow ho]
        · exact fun hP => ⟨now, hnow, hP⟩
      rw [List.forall_mem_append, List.forall_mem_cons, ih hlater, hunique]

theorem exists_obtains_of_readEach (h : Obtains (readEach field ops rest) cs) :
    ∀ e ∈ rest, ∃ o, Obtains (readOperator field ops e.1 e.2) o := by
  have htrivial : ∀ c ∈ cs, True := fun _ _ => trivial
  intro e he
  obtain ⟨o, ho, -⟩ := (forall_iff_of_obtains_readEach (fun _ => True) h).1 htrivial e he
  exact ⟨o, ho⟩

theorem obtains_readEach_of_readOperators (h : Obtains (readOperators field ops) cs) :
    Obtains (readEach field ops ops) cs := by
  obtain ⟨conditions, hconditions, h⟩ := (steady_readEach field ops ops).of_obtains_bind h
  split at h
  · exact absurd h not_obtains_fail
  · rwa [obtains_pure_iff.1 h]

end Obtained

end Condition

end DocStore
