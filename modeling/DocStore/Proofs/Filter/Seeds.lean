import DocStore.Filter.Basic
import DocStore.Proofs.Reading
import DocStore.Proofs.Value.Json

/-!
# Demands of filters

The equalities that a filter demands hold values from the JSON that the filter was read from. So
they have every property that the JSON conveys: `Filter.gives_read`.
-/

set_option autoImplicit false

namespace DocStore

open Value (Everywhere)

variable {P L : Value → Prop} {N : List (String × Value) → Prop} {J : Json → Prop}

/-! ## Conditions -/

namespace Condition

/-- A condition that demands no value but one with a property. -/
def Seeds (P : Value → Prop) : Condition → Prop
  | eq v => P v
  | _ => True

theorem seeds_comparison {op : String} {make : Value → Condition}
    (h : comparison? op = some make) {v : Value} (hv : P v) : (make v).Seeds P := by
  unfold comparison? at h
  split at h
  case h_1 =>
    cases h
    exact hv
  case h_7 => cases h
  all_goals
    cases h
    trivial

theorem seeds_membership {op : String} {make : List Value → Condition}
    (h : membership? op = some make) (vs : List Value) : (make vs).Seeds P := by
  unfold membership? at h
  split at h
  case h_3 => cases h
  all_goals
    cases h
    trivial

theorem gives_readRegex (field : String) (ops : Fields Json) (operand : Json) :
    Gives (readRegex field ops operand) (Seeds P) := by
  have hcompile (source options : String) : Gives (do
      return regex (← Reading.pattern source options)) (Seeds P) :=
    gives_bind (gives_any _) fun _ _ => gives_pure trivial
  refine gives_bind (gives_any _) fun source _ => ?_
  dsimp only
  -- The options are read if there are any; a pattern demands no value either way.
  split
  · exact gives_bind (gives_any _) fun options _ => hcompile source options
  · exact gives_bind (gives_any _) fun options _ => hcompile source options

theorem gives_readOperator (hJ : Value.Conveys J L N) (field : String) (ops : Fields Json)
    (op : String) {operand : Json}
    (h : J operand) : Gives (readOperator field ops op operand)
      fun c => ∀ d ∈ c, Seeds (Everywhere L N) d := by
  have hone {d : Condition} (hd : d.Seeds (Everywhere L N)) :
      ∀ e ∈ some d, Seeds (Everywhere L N) e := by
    rintro _ ⟨⟩
    exact hd
  unfold readOperator
  split
  · rename_i hop
    exact gives_pure (hone (seeds_comparison hop (hJ.value operand h)))
  · split
    · rename_i hop
      exact gives_bind (gives_any _) fun items _ => gives_pure (hone (seeds_membership hop _))
    · split
      · exact gives_bind (gives_any _) fun flag _ => gives_pure (hone trivial)
      · exact gives_bind (gives_any _) fun n _ => gives_pure (hone trivial)
      · exact gives_map fun cache d hd => hone (gives_readRegex field ops operand cache d hd)
      · exact gives_pure nofun
      · exact gives_fail _

theorem gives_readEach (hJ : Value.Conveys J L N) (field : String) (ops : Fields Json)
    {rest : List (String × Json)}
    (h : ∀ e ∈ rest, J e.2) : Gives (readEach field ops rest)
      fun cs => ∀ c ∈ cs, Seeds (Everywhere L N) c := by
  induction rest with
  | nil => exact gives_pure (List.forall_mem_nil _)
  | cons e rest ih =>
      obtain ⟨he, hrest⟩ := List.forall_mem_cons.1 h
      refine gives_bind (gives_readOperator hJ field ops e.1 he) fun now hnow => ?_
      refine gives_bind (ih hrest) fun later hlater => gives_pure ?_
      refine List.forall_mem_append.2 ⟨fun c hc => ?_, hlater⟩
      exact hnow c (Option.mem_toList.1 hc)

theorem gives_readOperators (hJ : Value.Conveys J L N) (field : String) {ops : Fields Json}
    (h : ∀ e ∈ ops, J e.2) :
    Gives (readOperators field ops) fun cs => ∀ c ∈ cs, Seeds (Everywhere L N) c := by
  refine gives_bind (gives_readEach hJ field ops h) fun cs hcs => ?_
  split
  · exact gives_fail _
  · exact gives_pure hcs

end Condition

/-! ## Filters -/

namespace Filter

/-- A filter that demands values with a property only. -/
def Seeds (P : Value → Prop) (f : Filter) : Prop := ∀ e ∈ f.equalitySeeds, P e.2

/-- The same of several filters. -/
def SeedsItems (P : Value → Prop) (fs : List Filter) : Prop := ∀ e ∈ equalitySeedsOf fs, P e.2

theorem seedsItems_iff {fs : List Filter} : SeedsItems P fs ↔ ∀ f ∈ fs, f.Seeds P := by
  induction fs with
  | nil => simp [SeedsItems, equalitySeedsOf]
  | cons f rest ih =>
      rw [List.forall_mem_cons, ← ih]
      exact List.forall_mem_append

theorem seeds_field (path : String) {c : Condition} (hc : c.Seeds P) :
    (field path c).Seeds P := by
  cases c with
  | eq v => exact List.forall_mem_singleton.2 hc
  | _ => exact List.forall_mem_nil _

theorem seeds_conjunction {fs : List Filter} (h : SeedsItems P fs) :
    (conjunction fs).Seeds P := by
  unfold conjunction
  split
  · exact seedsItems_iff.1 h _ List.mem_cons_self
  · exact h

theorem seeds_combinator {key : String} {combine : List Filter → Filter}
    (hkey : combinator? key = some combine) {fs : List Filter} (h : SeedsItems P fs) :
    (combine fs).Seeds P := by
  unfold combinator? at hkey
  split at hkey
  case h_1 =>
    cases hkey
    exact h
  case h_4 => cases hkey
  all_goals
    cases hkey
    exact List.forall_mem_nil _

theorem gives_readField (hJ : Value.Conveys J L N) (path : String) {operand : Json}
    (h : J operand) :
    Gives (readField path operand) (SeedsItems (Everywhere L N)) := by
  have heq : Gives (pure [field path (.eq (Value.ofJson operand))])
      (SeedsItems (Everywhere L N)) := by
    refine gives_pure (seedsItems_iff.2 (List.forall_mem_singleton.2 ?_))
    exact seeds_field path (c := .eq _) (hJ.value operand h)
  unfold readField
  split
  · -- An object of operators gives conditions, all other operands are values to be equal to.
    split
    · split
      · split
        · exact gives_fail _
        · refine gives_bind (Condition.gives_readOperators hJ path (hJ.fields h)) fun cs hcs => ?_
          refine gives_pure ?_
          refine seedsItems_iff.2 (List.forall_mem_map.2 fun c hc => ?_)
          exact seeds_field path (hcs c hc)
      · exact heq
    · exact heq
  · exact gives_fail _

mutual

/-- **A filter demands values of the JSON that it is read from.** -/
theorem gives_read (hJ : Value.Conveys J L N) :
    ∀ j : Json, J j → Gives (read j) (Seeds (Everywhere L N))
  | .object fields, h =>
      gives_bind (gives_readFields hJ fields (hJ.fields h)) fun _ hfs =>
        gives_pure (seeds_conjunction hfs)
  | .null, _ | .bool _, _ | .number _, _ | .string _, _ | .array _, _ => gives_fail _

theorem gives_readFields (hJ : Value.Conveys J L N) : ∀ fields : List (String × Json),
    (∀ e ∈ fields, J e.2) → Gives (readFields fields) (SeedsItems (Everywhere L N))
  | [], _ => gives_pure (List.forall_mem_nil _)
  | (key, operand) :: rest, h => by
      obtain ⟨hoperand, hrest⟩ := List.forall_mem_cons.1 h
      refine gives_bind (gives_readClause hJ key operand hoperand) fun now hnow => ?_
      refine gives_bind (gives_readFields hJ rest hrest) fun later hlater => gives_pure ?_
      exact seedsItems_iff.2 (List.forall_mem_append.2
        ⟨seedsItems_iff.1 hnow, seedsItems_iff.1 hlater⟩)

theorem gives_readClause (hJ : Value.Conveys J L N) (key : String) : ∀ operand : Json,
    J operand → Gives (readClause key operand) (SeedsItems (Everywhere L N)) := by
  intro operand h
  unfold readClause
  split
  · rename_i combine hkey
    split
    · exact gives_fail _
    · rename_i items _
      refine gives_bind (gives_readItems hJ items (hJ.items h)) fun fs hfs => gives_pure ?_
      exact seedsItems_iff.2 (List.forall_mem_singleton.2 (seeds_combinator hkey hfs))
    · exact gives_fail _
  · split
    · exact gives_fail _
    · exact gives_readField hJ key h

theorem gives_readItems (hJ : Value.Conveys J L N) : ∀ items : List Json,
    (∀ j ∈ items, J j) → Gives (readItems items) (SeedsItems (Everywhere L N))
  | [], _ => gives_pure (List.forall_mem_nil _)
  | j :: rest, h => by
      obtain ⟨hj, hrest⟩ := List.forall_mem_cons.1 h
      refine gives_bind (gives_read hJ j hj) fun f hf => ?_
      refine gives_bind (gives_readItems hJ rest hrest) fun fs hfs => gives_pure ?_
      exact seedsItems_iff.2 (List.forall_mem_cons.2 ⟨hf, seedsItems_iff.1 hfs⟩)

end

end Filter

end DocStore
