import DocStore.Filter.Basic

/-!
# Filters of equalities

JSON that holds nothing but fields with literals, fields with `$eq`, and conjunctions of these is
read as a filter that demands exactly these equalities: `Filter.read_eq_pure`. A document that is
inserted is seeded with all of them, and another one passes if it meets all of them.
-/

set_option autoImplicit false

namespace DocStore

/-- A single `$eq` is read as the equality. -/
theorem Condition.readOperators_eq (m : Type → Type) [Reading m] [LawfulMonad m] (path : String)
    (v : Json) : readOperators path [("$eq", v)] = (pure [eq (Value.ofJson v)] : m _) := by
  have hcomparison : comparison? "$eq" = some eq := rfl
  have hoptions : Fields.contains [("$eq", v)] "$options" = false := rfl
  have hoperator : readOperator path [("$eq", v)] "$eq" v =
      (pure (some (eq (Value.ofJson v))) : m _) := by
    unfold readOperator
    rw [hcomparison]
  rw [readOperators, readEach, readEach, hoperator]
  simp [hoptions]

namespace Filter

/-! ## Demands in JSON -/

/-- The equality that a clause demands of a path, if it is a literal or `$eq`. -/
def demand? (path : String) (operand : Json) : Option (String × Json) :=
  if Segments.isPath path && !Segments.isOperator path then
    match operand with
    | .object [("$eq", v)] => some (path, v)
    | .object ops => if isOperatorMap ops then none else some (path, .object ops)
    | literal => some (path, literal)
  else none

mutual

/-- The equalities that a filter consists of, each a path with what must be there; none if there is
anything else in it. -/
def demands? : Json → Option (List (String × Json))
  | .object fields => demandsOfFields? fields
  | _ => none

/-- The equalities of the clauses of an object. -/
def demandsOfFields? : List (String × Json) → Option (List (String × Json))
  | [] => some []
  | (key, operand) :: rest => do
    let now ← demandsOfClause? key operand
    let later ← demandsOfFields? rest
    return now ++ later

/-- The equalities of one clause. -/
def demandsOfClause? (key : String) (operand : Json) : Option (List (String × Json)) :=
  if key = "$and" then
    match operand with
    | .array (j :: rest) => demandsOfItems? (j :: rest)
    | _ => none
  else (demand? key operand).map fun d => [d]

/-- The equalities of several filters. -/
def demandsOfItems? : List Json → Option (List (String × Json))
  | [] => some []
  | j :: rest => do
    let now ← demands? j
    let later ← demandsOfItems? rest
    return now ++ later

end

/-! ## Demands of clauses -/

/-- The filter of one equality. -/
def equality (d : String × Json) : Filter := field d.1 (.eq (Value.ofJson d.2))

/-- Clauses demand equalities and nothing else. -/
structure Demand (clauses : List Filter) (ds : List (String × Json)) : Prop where
  seeds : equalitySeedsOf clauses = ds.map fun d => (d.1, Value.ofJson d.2)
  holds : ∀ m, holdsAll m clauses = ds.all fun d => (equality d).holds m

variable {clauses others : List Filter} {ds es : List (String × Json)}

theorem equalitySeedsOf_append (clauses others : List Filter) :
    equalitySeedsOf (clauses ++ others) = equalitySeedsOf clauses ++ equalitySeedsOf others := by
  induction clauses with
  | nil => rfl
  | cons f rest ih => simp only [List.cons_append, equalitySeedsOf, ih, List.append_assoc]

theorem demand_nil : Demand [] [] := ⟨rfl, fun _ => rfl⟩

theorem demand_equality (d : String × Json) : Demand [equality d] [d] := by
  refine ⟨rfl, fun m => ?_⟩
  rw [holdsAll, holdsAll, List.all_cons, List.all_nil]

theorem Demand.append (h : Demand clauses ds) (h' : Demand others es) :
    Demand (clauses ++ others) (ds ++ es) where
  seeds := by rw [equalitySeedsOf_append, h.seeds, h'.seeds, List.map_append]
  holds m := by rw [holdsAll_append, h.holds, h'.holds, List.all_append]

theorem Demand.and (h : Demand clauses ds) : Demand [.and clauses] ds where
  seeds := by rw [equalitySeedsOf, equalitySeedsOf, equalitySeeds, List.append_nil, h.seeds]
  holds m := by rw [holdsAll, holdsAll, Filter.holds, Bool.and_true, h.holds]

theorem Demand.conjunction (h : Demand clauses ds) : Demand [Filter.conjunction clauses] ds := by
  unfold Filter.conjunction
  split
  · exact h
  · exact h.and

/-- A single filter is seeded with its demands. -/
theorem Demand.equalitySeeds_eq {f : Filter} (h : Demand [f] ds) :
    f.equalitySeeds = ds.map fun d => (d.1, Value.ofJson d.2) := by
  rw [← h.seeds, equalitySeedsOf, equalitySeedsOf, List.append_nil]

/-- A single filter holds where its demands hold. -/
theorem Demand.holds_iff {f : Filter} (h : Demand [f] ds) {m : Fields Value} :
    f.holds m = true ↔ ∀ d ∈ ds, (equality d).holds m = true := by
  rw [← List.all_eq_true, ← h.holds, holdsAll, holdsAll, Bool.and_true]

/-! ## Reading -/

/-- The operand `$eq` of a field is an operator and nothing else. -/
theorem isOperatorMap_eq (v : Json) : isOperatorMap [("$eq", v)] = true ∧
    [("$eq", v)].find? (fun e => !Segments.isOperator e.1) = none := by
  have hop : Segments.isOperator "$eq" = true := rfl
  have hdate : Fields.contains [("$eq", v)] Value.dateField = false := rfl
  exact ⟨by simp [isOperatorMap, hop, hdate], by simp [hop]⟩

theorem readField_eq_pure (m : Type → Type) [Reading m] [LawfulMonad m] {path : String}
    {operand : Json} {d : String × Json} (h : demand? path operand = some d) :
    (readField path operand : m (List Filter)) = pure [equality d] := by
  obtain ⟨hpath, h⟩ := Option.ite_none_right_eq_some.1 h
  obtain ⟨hpath, -⟩ := Bool.and_eq_true_iff.1 hpath
  unfold readField
  rw [if_pos hpath]
  split at h
  · rename_i v _
    cases h
    obtain ⟨hop, hnone⟩ := isOperatorMap_eq v
    dsimp only
    rw [if_pos hop, hnone]
    dsimp only
    rw [Condition.readOperators_eq m, pure_bind]
    rfl
  · rename_i ops _
    obtain ⟨hliteral, h⟩ := Option.ite_none_left_eq_some.1 h
    cases h
    dsimp only
    rw [if_neg hliteral]
    rfl
  · rename_i hobject
    cases h
    split
    · exact absurd rfl (hobject _)
    · rfl

/-- A name that is not written like an operator is none of a combinator. -/
theorem combinator?_of_not_isOperator {key : String} (h : Segments.isOperator key = false) :
    combinator? key = none := by
  unfold combinator?
  split
  · cases h
  · cases h
  · cases h
  · rfl

mutual

/-- **Equalities are read as what they demand**, in every context. -/
theorem read_eq_pure : ∀ {j : Json} {ds : List (String × Json)}, demands? j = some ds →
    ∃ f, Demand [f] ds ∧ ∀ (m : Type → Type) [Reading m] [LawfulMonad m], read j = (pure f : m _)
  | .object fields, ds, h => by
      obtain ⟨clauses, hdemand, hread⟩ := readFields_eq_pure h
      refine ⟨conjunction clauses, hdemand.conjunction, fun m _ _ => ?_⟩
      rw [read, hread m, pure_bind]

theorem readFields_eq_pure : ∀ {fields : List (String × Json)} {ds : List (String × Json)},
    demandsOfFields? fields = some ds → ∃ clauses, Demand clauses ds ∧
      ∀ (m : Type → Type) [Reading m] [LawfulMonad m], readFields fields = (pure clauses : m _)
  | [], ds, h => by
      cases h
      exact ⟨[], demand_nil, fun m _ _ => rfl⟩
  | (key, operand) :: rest, ds, h => by
      obtain ⟨now, hnow, h⟩ := Option.bind_eq_some_iff.1 h
      obtain ⟨later, hlater, h⟩ := Option.bind_eq_some_iff.1 h
      cases h
      obtain ⟨clauses, hdemand, hread⟩ := readClause_eq_pure hnow
      obtain ⟨others, hdemands, hothers⟩ := readFields_eq_pure hlater
      refine ⟨clauses ++ others, hdemand.append hdemands, fun m _ _ => ?_⟩
      rw [readFields, hread m, pure_bind, hothers m, pure_bind]

theorem readClause_eq_pure {key : String} : ∀ {operand : Json} {ds : List (String × Json)},
    demandsOfClause? key operand = some ds → ∃ clauses, Demand clauses ds ∧
      ∀ (m : Type → Type) [Reading m] [LawfulMonad m],
        readClause key operand = (pure clauses : m _) := by
  intro operand ds h
  unfold demandsOfClause? at h
  split at h
  · rename_i hkey
    subst hkey
    split at h
    · rename_i j rest
      obtain ⟨clauses, hdemand, hread⟩ := readItems_eq_pure h
      refine ⟨[.and clauses], hdemand.and, fun m _ _ => ?_⟩
      have hand : combinator? "$and" = some .and := rfl
      unfold readClause
      rw [hand]
      dsimp only
      rw [hread m, pure_bind]
    · cases h
  · obtain ⟨d, hd, rfl⟩ := Option.map_eq_some_iff.1 h
    have hplain : Segments.isOperator key = false := by
      have hpath := (Option.ite_none_right_eq_some.1 hd).1
      simpa using (Bool.and_eq_true_iff.1 hpath).2
    refine ⟨[equality d], demand_equality d, fun m _ _ => ?_⟩
    unfold readClause
    rw [combinator?_of_not_isOperator hplain, hplain]
    exact readField_eq_pure m hd

theorem readItems_eq_pure : ∀ {items : List Json} {ds : List (String × Json)},
    demandsOfItems? items = some ds → ∃ clauses, Demand clauses ds ∧
      ∀ (m : Type → Type) [Reading m] [LawfulMonad m], readItems items = (pure clauses : m _)
  | [], ds, h => by
      cases h
      exact ⟨[], demand_nil, fun m _ _ => rfl⟩
  | j :: rest, ds, h => by
      obtain ⟨now, hnow, h⟩ := Option.bind_eq_some_iff.1 h
      obtain ⟨later, hlater, h⟩ := Option.bind_eq_some_iff.1 h
      cases h
      obtain ⟨f, hdemand, hread⟩ := read_eq_pure hnow
      obtain ⟨others, hdemands, hothers⟩ := readItems_eq_pure hlater
      refine ⟨f :: others, hdemand.append hdemands, fun m _ _ => ?_⟩
      rw [readItems, hread m, pure_bind, hothers m, pure_bind]

end

end Filter

end DocStore
