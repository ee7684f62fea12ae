import DocStore.Pipeline.Names
import DocStore.Proofs.Filter.Demands
import DocStore.Proofs.Filter.Operators

/-!
# Filters in JSON

`Filter.Accepted` says of JSON that it is read as a filter, and `Filter.Passes` that an object
passes that filter, with whatever cache of patterns it was read. Operators on a field are accepted
together only if they are accepted alone, and an object passes them iff it passes each:
`passes_several`.
-/

set_option autoImplicit false

namespace DocStore

theorem Segments.isFieldPath_iff {path : String} : isFieldPath path = true ↔
    isOperator path = false ∧ isPath path = true := by
  rw [isFieldPath, Bool.and_eq_true, Bool.not_eq_true']

namespace Filter

/-! ## Filters in JSON -/

/-- JSON that is read as a filter, with some cache that patterns were compiled with. -/
def Accepted (j : Json) : Prop := ∃ f, Obtains (read j) f

/-- JSON that is read as a filter which an object with the given fields passes. -/
def Passes (m : Fields Value) (j : Json) : Prop :=
  ∃ f, Obtains (read j) f ∧ f.isMatch (.object m) = true

/-- Conditions on one field. -/
def onField (path : String) (ops : Fields Json) : Json := .object [(path, .object ops)]

/-- A combinator of filters. -/
def combined (name : String) (filters : List Json) : Json := .object [(name, .array filters)]

variable {m : Fields Value}

/-- With whatever cache a filter is read, the same objects pass it. -/
theorem passes_iff {j : Json} {f : Filter} (h : Obtains (read j) f) :
    Passes m j ↔ f.isMatch (.object m) = true := by
  constructor
  · rintro ⟨g, hg, hmatch⟩
    rwa [(steady_read j).obtains_unique h hg]
  · exact fun hmatch => ⟨f, h, hmatch⟩

/-! ## Conditions on a field -/

theorem read_field (n : Type → Type) [Reading n] [LawfulMonad n] {path : String} {operand : Json}
    (hplain : Segments.isOperator path = false) :
    (read (.object [(path, operand)]) : n Filter) = conjunction <$> readField path operand := by
  have hclause : (readClause path operand : n (List Filter)) = readField path operand := by
    unfold readClause
    rw [combinator?_of_not_isOperator hplain, hplain]
    rfl
  rw [read, readFields, readFields, hclause]
  simp

section Field

variable {path : String} {ops : Fields Json} (hpath : Segments.isFieldPath path = true)
  (hops : isOperatorMap ops = true)
include hpath hops

/-- Operators do not stand beside names of fields. -/
theorem isOperator_of_accepted (h : Accepted (onField path ops)) :
    ∀ e ∈ ops, Segments.isOperator e.1 = true := by
  obtain ⟨hplain, hpath⟩ := Segments.isFieldPath_iff.1 hpath
  obtain ⟨f, hf⟩ := h
  rw [onField, read_field CachedReading hplain, readField, if_pos hpath] at hf
  obtain ⟨fs, hfs, -⟩ := obtains_map_iff.1 hf
  rw [if_pos hops] at hfs
  split at hfs
  · exact absurd hfs not_obtains_fail
  · rename_i hnone
    simpa using hnone

variable (hnames : ∀ e ∈ ops, Segments.isOperator e.1 = true)
include hnames

theorem read_onField (n : Type → Type) [Reading n] [LawfulMonad n] :
    (read (onField path ops) : n Filter) =
      (fun cs => conjunction (cs.map (field path))) <$> Condition.readOperators path ops := by
  obtain ⟨hplain, hpath⟩ := Segments.isFieldPath_iff.1 hpath
  have hnone : List.find? (fun e => !Segments.isOperator e.1) ops = none := by
    simpa using hnames
  rw [onField, read_field n hplain, readField, if_pos hpath,
    if_pos hops, hnone]
  dsimp only
  rw [bind_pure_comp, Functor.map_map]

theorem accepted_onField_iff :
    Accepted (onField path ops) ↔ ∃ cs, Obtains (Condition.readOperators path ops) cs := by
  rw [Accepted, read_onField hpath hops hnames]
  simp [obtains_map_iff]

theorem passes_onField_iff {m : Fields Value} : Passes m (onField path ops) ↔
    ∃ cs, Obtains (Condition.readOperators path ops) cs ∧
      ∀ c ∈ cs, c.holds (Value.fieldTerminals m path) = true := by
  have hmatch (cs : List Condition) :
      (conjunction (cs.map (field path))).isMatch (.object m) = true ↔
        ∀ c ∈ cs, c.holds (Value.fieldTerminals m path) = true := by
    rw [isMatch, holds_conjunction, holdsAll_map_field, List.all_eq_true]
  rw [Passes, read_onField hpath hops hnames]
  simp [obtains_map_iff, hmatch]

end Field

/-! ## One operator -/

/-- Each operator that is accepted in company is accepted alone, and means what is read from it. -/
theorem passes_alone {path : String} {ops : Fields Json} {e : String × Json}
    {o : Option Condition} (hpath : Segments.isFieldPath path = true)
    (hop : Segments.isOperator e.1 = true) (hoptions : e.1 ≠ "$options")
    (ho : Obtains (Condition.readOperator path ops e.1 e.2) o) :
    Accepted (onField path (Condition.alone ops e)) ∧ ∀ m : Fields Value,
      Passes m (onField path (Condition.alone ops e)) ↔
        ∃ o, Obtains (Condition.readOperator path ops e.1 e.2) o ∧
          ∀ c ∈ o.toList, c.holds (Value.fieldTerminals m path) = true := by
  have hdate : e.1 ≠ Value.dateField := by
    intro hdate
    rw [hdate] at ho
    exact not_obtains_fail ho
  have hnames : ∀ d ∈ Condition.alone ops e, Segments.isOperator d.1 = true := by
    intro d hd
    rcases Condition.eq_or_options_of_mem_alone hd with rfl | hd
    · exact hop
    · rw [hd]
      decide
  have hnodate : Fields.contains (Condition.alone ops e) Value.dateField = false := by
    rw [Bool.eq_false_iff, Ne, Fields.contains_iff_mem]
    rintro ⟨v, hv⟩
    rcases Condition.eq_or_options_of_mem_alone hv with rfl | hv
    · exact hdate rfl
    · exact absurd hv (by decide : Value.dateField ≠ "$options")
  have hops : isOperatorMap (Condition.alone ops e) = true := by
    rw [isOperatorMap, hnodate, Bool.and_false, Bool.not_false, Bool.and_true, List.any_eq_true]
    exact ⟨e, Condition.mem_alone_self ops e, hop⟩
  refine ⟨(accepted_onField_iff hpath hops hnames).2 ⟨o.toList, ?_⟩, fun m => ?_⟩
  · rw [Condition.readOperators_alone CachedReading hoptions, obtains_map_iff]
    exact ⟨o, ho, rfl⟩
  · rw [passes_onField_iff hpath hops hnames,
      Condition.readOperators_alone CachedReading hoptions]
    simp [obtains_map_iff]

/-- An operator that is read as a condition means this condition. -/
theorem accepted_single {path op : String} {operand : Json} {c : Condition}
    (hpath : Segments.isFieldPath path = true) (hop : Segments.isOperator op = true)
    (hoptions : op ≠ "$options")
    (hread : (Condition.readOperator path [(op, operand)] op operand :
      CachedReading (Option Condition)) = pure (some c)) :
    Accepted (onField path [(op, operand)]) ∧ ∀ m : Fields Value,
      Passes m (onField path [(op, operand)]) ↔
        c.holds (Value.fieldTerminals m path) = true := by
  have ho : Obtains (Condition.readOperator path [(op, operand)] op operand) (some c) := by
    rw [hread]
    exact obtains_pure_iff.2 rfl
  have halone : Condition.alone [(op, operand)] (op, operand) = [(op, operand)] := by
    simp [Condition.alone, hoptions]
  obtain ⟨haccepted, hpasses⟩ := passes_alone (e := (op, operand)) hpath hop hoptions ho
  rw [halone] at haccepted hpasses
  refine ⟨haccepted, fun m => ?_⟩
  rw [hpasses, hread]
  simp [obtains_pure_iff]

/-! ## Operators that are always accepted -/

section Accepted

variable {path op : String} (hpath : Segments.isFieldPath path = true)
include hpath

theorem accepted_comparison {make : Value → Condition}
    (h : Condition.comparison? op = some make) (v : Json) :
    Accepted (onField path [(op, v)]) ∧ ∀ m : Fields Value, Passes m (onField path [(op, v)]) ↔
      (make (Value.ofJson v)).holds (Value.fieldTerminals m path) = true := by
  obtain ⟨hop, hoptions⟩ : Segments.isOperator op = true ∧ op ≠ "$options" := by
    unfold Condition.comparison? at h
    split at h <;> first | exact ⟨by decide, by decide⟩ | cases h
  exact accepted_single hpath hop hoptions (Condition.readOperator_comparison _ h)

theorem accepted_membership {make : List Value → Condition}
    (h : Condition.membership? op = some make) (vs : List Json) :
    Accepted (onField path [(op, .array vs)]) ∧
      ∀ m : Fields Value, Passes m (onField path [(op, .array vs)]) ↔
        (make (Value.ofJsonItems vs)).holds (Value.fieldTerminals m path) = true := by
  obtain ⟨hop, hoptions, hcomparison⟩ : Segments.isOperator op = true ∧
      op ≠ "$options" ∧ Condition.comparison? op = none := by
    unfold Condition.membership? at h
    split at h <;> first | exact ⟨by decide, by decide, rfl⟩ | cases h
  exact accepted_single hpath hop hoptions
    (Condition.readOperator_membership _ hcomparison h)

theorem accepted_exists (flag : Bool) :
    Accepted (onField path [("$exists", .bool flag)]) ∧
      ∀ m : Fields Value, Passes m (onField path [("$exists", .bool flag)]) ↔
        (Condition.present flag).holds (Value.fieldTerminals m path) = true :=
  accepted_single hpath (by decide) (by decide) (Condition.readOperator_exists _ flag)

end Accepted

/-! ## Several operators -/

/-- **Several operators on a field all hold**, each of them as without the others. -/
theorem passes_several {path : String} {ops : Fields Json}
    (hpath : Segments.isFieldPath path = true) (hops : isOperatorMap ops = true)
    (h : Accepted (onField path ops)) :
    (∀ e ∈ ops, e.1 ≠ "$options" → Accepted (onField path (Condition.alone ops e))) ∧
      ∀ m : Fields Value, Passes m (onField path ops) ↔
        ∀ e ∈ ops, e.1 ≠ "$options" → Passes m (onField path (Condition.alone ops e)) := by
  have hnames := isOperator_of_accepted hpath hops h
  obtain ⟨cs, hcs⟩ := (accepted_onField_iff hpath hops hnames).1 h
  have heach := Condition.obtains_readEach_of_readOperators hcs
  have hread := Condition.exists_obtains_of_readEach heach
  refine ⟨fun e he hoptions => ?_, fun m => ?_⟩
  · obtain ⟨o, ho⟩ := hread e he
    exact (passes_alone hpath (hnames e he) hoptions ho).1
  · have hcs' : Passes m (onField path ops) ↔
        ∀ c ∈ cs, c.holds (Value.fieldTerminals m path) = true := by
      rw [passes_onField_iff hpath hops hnames]
      constructor
      · rintro ⟨cs', hread', hhold⟩
        rwa [(Condition.steady_readOperators path ops).obtains_unique hcs hread']
      · exact fun hhold => ⟨cs, hcs, hhold⟩
    rw [hcs', Condition.forall_iff_of_obtains_readEach _ heach]
    refine forall₂_congr fun e he => ?_
    obtain ⟨o, ho⟩ := hread e he
    -- Options are no condition of their own; any other operator is read as it is alone.
    by_cases hoptions : e.1 = "$options"
    · have hnone : Obtains (Condition.readOperator path ops e.1 e.2) none := by
        rw [hoptions, Condition.readOperator_options]
        exact obtains_pure_iff.2 rfl
      exact iff_of_true ⟨none, hnone, List.forall_mem_nil _⟩ fun hne => absurd hoptions hne
    · rw [(passes_alone hpath (hnames e he) hoptions ho).2 m]
      exact ⟨fun h _ => h, fun h => h hoptions⟩

/-! ## Combinators -/

theorem obtains_combined_iff {name : String} {combine : List Filter → Filter}
    (h : combinator? name = some combine) {fs : List Json} {f : Filter} :
    Obtains (read (combined name fs)) f ↔
      fs ≠ [] ∧ ∃ gs, Obtains (readItems fs) gs ∧ combine gs = f := by
  have hread : (read (combined name fs) : CachedReading Filter) =
      conjunction <$> readClause name (.array fs) := by
    rw [combined, read, readFields, readFields]
    simp
  rw [hread]
  unfold readClause
  rw [h]
  cases fs with
  | nil =>
      refine iff_of_false ?_ fun h => h.1 rfl
      rw [obtains_map_iff]
      rintro ⟨gs, hgs, -⟩
      exact not_obtains_fail hgs
  | cons j rest =>
      dsimp only
      rw [bind_pure_comp, Functor.map_map, obtains_map_iff]
      simp [conjunction]

theorem accepted_combined_iff {name : String} {combine : List Filter → Filter}
    (h : combinator? name = some combine) {fs : List Json} :
    Accepted (combined name fs) ↔ fs ≠ [] ∧ ∃ gs, Obtains (readItems fs) gs := by
  simp [Accepted, obtains_combined_iff h]

/-- **`$nor` is the opposite of `$or`.** -/
theorem passes_nor_iff {fs : List Json} (h : Accepted (combined "$nor" fs)) (m : Fields Value) :
    Passes m (combined "$nor" fs) ↔ ¬ Passes m (combined "$or" fs) := by
  have hnor : combinator? "$nor" = some nor := rfl
  have hor : combinator? "$or" = some or := rfl
  obtain ⟨hne, gs, hgs⟩ := (accepted_combined_iff hnor).1 h
  rw [passes_iff ((obtains_combined_iff hnor).2 ⟨hne, gs, hgs, rfl⟩),
    passes_iff ((obtains_combined_iff hor).2 ⟨hne, gs, hgs, rfl⟩), isMatch, isMatch, holds, holds,
    Bool.not_eq_true', Bool.not_eq_true]

end Filter

end DocStore
