import DocStore.Proofs.Error
import DocStore.Proofs.Fields
import DocStore.Filter.Basic

/-!
# The grammar of filters

What JSON is a filter: `Filter.Grammatical`, a grammar that says nothing of how filters are read.
JSON of the grammar is read, and any other is refused as a malformed query:
`Filter.ofJson_of_grammar`. Whether the source of a pattern is well-formed and small enough is left
to `Regex`.
-/

set_option autoImplicit false

namespace DocStore

/-! ## Patterns -/

/-- Options are letters, each of which is one of those that stand for an option. -/
def Pattern.Lettered (options : String) : Prop := ∀ c ∈ options.toList, c ∈ optionLetters

/-- The source with its options is an expression, and one that fits into memory. -/
def Pattern.Compiles (source options : String) : Prop :=
  ∃ r, Regex.parse? (fullSource source options) = some r ∧ r.fits = true

/-! ## Operators -/

namespace Condition

/-- The options that stand among operators, if they are a text. -/
def options? (ops : Fields Json) : Option String :=
  (Fields.get? ops "$options").elim (some "") Json.string?

/-- An operator among others and what may stand under it. -/
inductive Operator (ops : Fields Json) : String → Json → Prop
  | comparison {op : String} (hop : op ∈ ["$eq", "$ne", "$gt", "$gte", "$lt", "$lte"])
      (operand : Json) : Operator ops op operand
  | membership {op : String} (hop : op ∈ ["$in", "$nin"]) (items : List Json) :
      Operator ops op (.array items)
  | flag (b : Bool) : Operator ops "$exists" (.bool b)
  | number (n : Json.Number) : Operator ops "$exists" (.number n)
  | size {n : Int} (hn : 0 ≤ n) (hlt : n.toNat < UInt64.size) :
      Operator ops "$size" (.number (.integer n))
  | regex {source options : String} (hoptions : options? ops = some options)
      (hletters : Pattern.Lettered options) (hcompiles : Pattern.Compiles source options) :
      Operator ops "$regex" (.string source)
  | options {options : String} (hregex : "$regex" ∈ Fields.keys ops)
      (hoptions : options? ops = some options) (hletters : Pattern.Lettered options)
      (operand : Json) : Operator ops "$options" operand

end Condition

/-! ## Filters -/

namespace Filter

/-- What may stand under a path: a literal, or operators. An object with the one key `$date` is a
literal. -/
inductive Operand : Json → Prop
  | scalar {j : Json} (hj : j.object? = none) : Operand j
  | object {fields : Fields Json} (hfields : ∀ e ∈ fields, Segments.isOperator e.1 = false) :
      Operand (.object fields)
  | date (content : Json) : Operand (.object [(Value.dateField, content)])
  | operators {ops : Fields Json} (hne : ops ≠ [])
      (hops : ∀ e ∈ ops, Condition.Operator ops e.1 e.2) : Operand (.object ops)

mutual

/-- JSON that is a filter: an object of clauses. -/
inductive Grammatical : Json → Prop
  | object {fields : Fields Json} (h : ∀ e ∈ fields, Clause e.1 e.2) :
      Grammatical (.object fields)

/-- A key of a filter and what may stand under it: filters under a combinator, and an operand under
a path. -/
inductive Clause : String → Json → Prop
  | combinator {key : String} (hkey : key ∈ ["$and", "$or", "$nor"]) {items : List Json}
      (hne : items ≠ []) (h : ∀ j ∈ items, Grammatical j) : Clause key (.array items)
  | field {path : String} (hkey : Segments.isOperator path = false)
      (hpath : ∀ segment ∈ Segments.ofPath path, segment ≠ "") {operand : Json}
      (h : Operand operand) : Clause path operand

end

end Filter

/-! ## Reading -/

/-- A condition tells whether JSON is read, and what is not read is refused as a malformed query. -/
abbrev Admits {α : Type} (p : Prop) (x : Result α) : Prop := Settles Error.IsQuery p x

theorem admits_ok {α : Type} {p : Prop} (h : p) (a : α) : Admits p (.ok a) := settles_ok h a

theorem admits_query {α : Type} {p : Prop} (h : ¬ p) (fault : QueryFault) :
    Admits p (.error (.query fault) : Result α) := settles_error h ⟨fault, rfl⟩

theorem admits_require {α : Type} {p : Prop} {v : Option α} (h : p ↔ v.isSome)
    (fault : QueryFault) : Admits p (Reading.require v (.query fault) : Result α) := by
  cases v with
  | none => exact admits_query (by simp [h]) fault
  | some a => exact admits_ok (by simp [h]) a

/-- A pattern is compiled iff its options are letters and the regular expression compiles. -/
theorem Pattern.admits_compile (source options : String) :
    Admits (Lettered options ∧ Compiles source options) (compile source options) := by
  refine Settles.map (f := fun regex : Regex => Pattern.mk source options regex) ?_
  have hletters : options.toList.find? (fun c => !optionLetters.contains c) = none ↔
      Lettered options := by
    simp [List.find?_eq_none, Lettered]
  unfold compileRegex
  split
  · rename_i c hc
    refine admits_query ?_ _
    rintro ⟨h, -⟩
    rw [hletters.2 h] at hc
    cases hc
  · rename_i hnone
    have hoptions := hletters.1 hnone
    split
    · rename_i hparse
      refine admits_query ?_ _
      rintro ⟨-, r, hr, -⟩
      rw [hparse] at hr
      cases hr
    · rename_i r hparse
      split
      · rename_i hfits
        exact admits_ok ⟨hoptions, r, hparse, hfits⟩ r
      · rename_i hfits
        refine admits_query ?_ _
        rintro ⟨-, r', hr', hfits'⟩
        cases hparse.symm.trans hr'
        exact hfits hfits'

namespace Condition

variable {ops : Fields Json} {op : String} {operand : Json}

theorem comparison?_isSome_iff :
    (comparison? op).isSome ↔ op ∈ ["$eq", "$ne", "$gt", "$gte", "$lt", "$lte"] := by
  unfold comparison?
  split <;> simp_all

theorem membership?_isSome_iff : (membership? op).isSome ↔ op ∈ ["$in", "$nin"] := by
  unfold membership?
  split <;> simp_all

/-! Which operands an operator takes. -/

theorem operator_membership_iff (hop : op ∈ ["$in", "$nin"]) :
    Operator ops op operand ↔ operand.array?.isSome := by
  constructor
  · intro h
    cases h with
    | comparison hcomparison =>
        rcases List.mem_pair.1 hop with rfl | rfl <;> simp at hcomparison
    | membership => rfl
    | _ => simp at hop
  · intro h
    obtain ⟨items, hitems⟩ := Option.isSome_iff_exists.1 h
    cases operand <;> cases hitems
    exact .membership hop items

theorem operator_exists_iff (hop : op = "$exists") :
    Operator ops op operand ↔ (flag? operand).isSome := by
  constructor
  · intro h
    cases h with
    | flag | number => rfl
    | _ => simp_all
  · rintro h
    subst hop
    cases operand with
    | bool b => exact .flag b
    | number n => exact .number n
    | _ => cases h

theorem operator_size_iff (hop : op = "$size") :
    Operator ops op operand ↔ operand.toUInt64?.isSome := by
  constructor
  · intro h
    cases h with
    | size hn hlt => simp [Json.toUInt64?, Json.Number.toUInt64?, hn, hlt]
    | _ => simp_all
  · intro h
    subst hop
    obtain ⟨n, hn⟩ := Option.isSome_iff_exists.1 h
    cases operand with
    | number k =>
        cases k with
        | integer k =>
            obtain ⟨⟨hk, hlt⟩, -⟩ := Option.ite_none_right_eq_some.1 hn
            exact .size hk hlt
        | double f => cases hn
    | _ => cases hn

theorem operator_regex_iff (hop : op = "$regex") : Operator ops op operand ↔
    ∃ source options, operand.string? = some source ∧ options? ops = some options ∧
      Pattern.Lettered options ∧ Pattern.Compiles source options := by
  constructor
  · intro h
    cases h with
    | regex hoptions hletters hcompiles => exact ⟨_, _, rfl, hoptions, hletters, hcompiles⟩
    | _ => simp_all
  · rintro ⟨source, options, hsource, hoptions, hletters, hcompiles⟩
    subst hop
    cases operand <;> cases hsource
    exact .regex hoptions hletters hcompiles

theorem operator_options_iff (hop : op = "$options") : Operator ops op operand ↔
    "$regex" ∈ Fields.keys ops ∧ ∃ options, options? ops = some options ∧
      Pattern.Lettered options := by
  constructor
  · intro h
    cases h with
    | options hregex hoptions hletters => exact ⟨hregex, _, hoptions, hletters⟩
    | _ => simp_all
  · rintro ⟨hregex, options, hoptions, hletters⟩
    subst hop
    exact .options hregex hoptions hletters operand

theorem Operator.isOperator (h : Operator ops op operand) : Segments.isOperator op = true := by
  cases h with
  | comparison hop =>
      exact (by decide : ∀ op ∈ ["$eq", "$ne", "$gt", "$gte", "$lt", "$lte"],
        Segments.isOperator op = true) op hop
  | membership hop =>
      exact (by decide : ∀ op ∈ ["$in", "$nin"], Segments.isOperator op = true) op hop
  | _ => rfl

/-! Reading operators. -/

theorem admits_readRegex (field : String) (hop : op = "$regex") :
    Admits (Operator ops op operand) (readRegex field ops operand) := by
  refine Settles.congr ?_ (operator_regex_iff hop).symm
  unfold readRegex options?
  cases operand.string? with
  | none => exact admits_query (by simp) _
  | some source =>
      have hpattern (options : String) :
          Admits (Pattern.Lettered options ∧ Pattern.Compiles source options)
            (do return regex (← Reading.pattern source options)) :=
        (Pattern.admits_compile source options).bind_ok
      cases Fields.get? ops "$options" with
      | none => exact (hpattern "").congr (by simp)
      | some j =>
          dsimp only [Option.elim]
          cases j.string? with
          | none => exact admits_query (by simp) _
          | some options => exact (hpattern options).congr (by simp)

/-- **An operator is read iff it is one**; what stands under `$options` is left to `$regex`. -/
theorem admits_readOperator (field op : String) (operand : Json) :
    Admits (op = "$options" ∨ Operator ops op operand) (readOperator field ops op operand) := by
  have hother (hop : op ≠ "$options") : Operator ops op operand ↔
      op = "$options" ∨ Operator ops op operand := (or_iff_right hop).symm
  unfold readOperator
  cases hcomparison : comparison? op with
  | some make =>
      have hop : op ∈ ["$eq", "$ne", "$gt", "$gte", "$lt", "$lte"] :=
        comparison?_isSome_iff.1 (by rw [hcomparison]; rfl)
      exact admits_ok (.inr (.comparison hop operand)) _
  | none =>
      cases hmembership : membership? op with
      | some make =>
          have hop : op ∈ ["$in", "$nin"] := membership?_isSome_iff.1 (by rw [hmembership]; rfl)
          refine Settles.congr ?_ (hother ?_)
          · exact (admits_require (operator_membership_iff hop) _).bind_ok
          · rintro rfl
            simp at hop
      | none =>
          dsimp only
          split
          · refine Settles.congr ?_ (hother (by decide))
            exact (admits_require (operator_exists_iff rfl) _).bind_ok
          · refine Settles.congr ?_ (hother (by decide))
            exact (admits_require (operator_size_iff rfl) _).bind_ok
          · refine Settles.congr ?_ (hother (by decide))
            exact (admits_readRegex field rfl).map some
          · exact admits_ok (.inl rfl) none
          · refine admits_query ?_ _
            rintro (rfl | h)
            · contradiction
            · cases h with
              | comparison hop =>
                  rw [← comparison?_isSome_iff, hcomparison] at hop
                  cases hop
              | membership hop =>
                  rw [← membership?_isSome_iff, hmembership] at hop
                  cases hop
              | _ => contradiction

/-- Where `$options` stands beside `$regex`, it is checked there. -/
theorem forall_operator_iff : (∀ e ∈ ops, Operator ops e.1 e.2) ↔
    (∀ e ∈ ops, e.1 = "$options" ∨ Operator ops e.1 e.2) ∧
      (Fields.contains ops "$options" && !Fields.contains ops "$regex") = false := by
  have halone : (Fields.contains ops "$options" && !Fields.contains ops "$regex") = false ↔
      ("$options" ∈ Fields.keys ops → "$regex" ∈ Fields.keys ops) := by
    rw [← Fields.contains_iff_mem_keys, ← Fields.contains_iff_mem_keys]
    cases Fields.contains ops "$options" <;> simp
  rw [halone]
  constructor
  · intro h
    refine ⟨fun e he => .inr (h e he), fun hmem => ?_⟩
    obtain ⟨e, he, hoptions⟩ := List.mem_map.1 hmem
    exact ((operator_options_iff hoptions).1 (h e he)).1
  · rintro ⟨h, hregex⟩ e he
    rcases h e he with hoptions | hoperator
    · have hmem : "$regex" ∈ Fields.keys ops := hregex (hoptions ▸ Fields.mem_keys he)
      obtain ⟨e', he', hop⟩ := List.mem_map.1 hmem
      have hother : e'.1 ≠ "$options" := by rw [hop]; decide
      obtain ⟨_, options, -, htext, hletters, -⟩ :=
        (operator_regex_iff hop).1 ((h e' he').resolve_left hother)
      exact (operator_options_iff hoptions).2 ⟨hmem, options, htext, hletters⟩
    · exact hoperator

/-- **Operators are read iff each of them is one.** -/
theorem admits_readOperators (field : String) (ops : Fields Json) :
    Admits (∀ e ∈ ops, Operator ops e.1 e.2) (readOperators field ops) := by
  have heach : Admits (∀ e ∈ ops, e.1 = "$options" ∨ Operator ops e.1 e.2)
      (readEach field ops ops) := by
    rw [readEach_eq]
    exact (settles_mapM fun e _ => admits_readOperator field e.1 e.2).map _
  refine Settles.congr (heach.bind fun conditions => ?_) forall_operator_iff.symm
  split
  · rename_i halone
    exact admits_query (by simp [halone]) _
  · rename_i halone
    exact admits_ok (by simpa using halone) conditions

end Condition

namespace Filter

variable {ops : Fields Json} {operand : Json}

theorem isPath_iff {path : String} : Segments.isPath path = true ↔
    ∀ segment ∈ Segments.ofPath path, segment ≠ "" := by
  simp [Segments.isPath]

/-- What holds no operators is a literal. -/
theorem operand_literal (h : isOperatorMap ops = false) : Operand (.object ops) := by
  by_cases hany : ops.any (fun e => Segments.isOperator e.1) = true
  · -- Only the key of a date may be written like an operator, and it stands alone.
    rw [isOperatorMap, hany, Bool.true_and, Bool.not_eq_false', Bool.and_eq_true, beq_iff_eq] at h
    obtain ⟨⟨key, content⟩, rfl⟩ := List.length_eq_one_iff.1 h.1
    have hkey : key = Value.dateField := by
      simpa [Fields.keys, eq_comm] using Fields.contains_iff_mem_keys.1 h.2
    exact hkey ▸ .date content
  · refine .object fun e he => ?_
    simpa using List.any_eq_false.1 (Bool.eq_false_iff.2 hany) e he

/-- What holds operators is an operand iff they are operators throughout. -/
theorem operand_operators_iff (h : isOperatorMap ops = true) : Operand (.object ops) ↔
    ∀ e ∈ ops, Condition.Operator ops e.1 e.2 := by
  constructor
  · intro hoperand
    cases hoperand with
    | scalar hj => cases hj
    | object hfields =>
        have hnone : ops.any (fun e => Segments.isOperator e.1) = false := by
          simpa using hfields
        rw [isOperatorMap, hnone] at h
        cases h
    | date content =>
        have hdate : isOperatorMap [(Value.dateField, content)] = false := by
          simp [isOperatorMap, Fields.contains, Fields.get?]
        rw [hdate] at h
        cases h
    | operators hne hops => exact hops
  · intro hops
    refine .operators ?_ hops
    rintro rfl
    cases h

theorem admits_readField (path : String) (operand : Json) :
    Admits ((∀ segment ∈ Segments.ofPath path, segment ≠ "") ∧ Operand operand)
      (readField path operand) := by
  unfold readField
  split
  · rename_i hpath
    refine Settles.congr ?_ (and_iff_right (isPath_iff.1 hpath)).symm
    split
    · rename_i ops
      split
      · rename_i hmap
        refine Settles.congr ?_ (operand_operators_iff hmap).symm
        split
        · rename_i key j hfind
          refine admits_query (fun hops => ?_) _
          have hkey := List.find?_some hfind
          rw [(hops _ (List.mem_of_find?_eq_some hfind)).isOperator] at hkey
          cases hkey
        · exact (Condition.admits_readOperators path ops).bind_ok
      · rename_i hliteral
        exact admits_ok (operand_literal (Bool.eq_false_iff.2 hliteral)) _
    · rename_i hobject
      refine admits_ok (.scalar ?_) _
      cases operand with
      | object fields => exact absurd rfl (hobject fields)
      | _ => rfl
  · rename_i hpath
    exact admits_query (fun h => hpath (isPath_iff.2 h.1)) _

theorem combinator?_isSome_iff {key : String} :
    (combinator? key).isSome ↔ key ∈ ["$and", "$or", "$nor"] := by
  unfold combinator?
  split <;> simp_all

/-- Under a combinator stand filters, one at least. -/
theorem clause_combinator_iff {key : String} (hkey : key ∈ ["$and", "$or", "$nor"]) :
    Clause key operand ↔
      ∃ items, operand = .array items ∧ items ≠ [] ∧ ∀ j ∈ items, Grammatical j := by
  have hname : Segments.isOperator key = true :=
    (by decide : ∀ key ∈ ["$and", "$or", "$nor"], Segments.isOperator key = true) key hkey
  constructor
  · intro h
    cases h with
    | combinator _ hne h => exact ⟨_, rfl, hne, h⟩
    | field hplain =>
        rw [hname] at hplain
        cases hplain
  · rintro ⟨items, rfl, hne, h⟩
    exact .combinator hkey hne h

/-- Under any other key, which is a path, stands an operand. -/
theorem clause_field_iff {key : String} (hkey : key ∉ ["$and", "$or", "$nor"]) :
    Clause key operand ↔ Segments.isOperator key = false ∧
      (∀ segment ∈ Segments.ofPath key, segment ≠ "") ∧ Operand operand := by
  constructor
  · intro h
    cases h with
    | combinator hcombinator => exact absurd hcombinator hkey
    | field hplain hpath h => exact ⟨hplain, hpath, h⟩
  · rintro ⟨hplain, hpath, h⟩
    exact .field hplain hpath h

theorem grammatical_object_iff {fields : Fields Json} :
    Grammatical (.object fields) ↔ ∀ e ∈ fields, Clause e.1 e.2 := by
  constructor
  · rintro ⟨h⟩
    exact h
  · exact .object

mutual

/-- **A filter is read iff it is one.** -/
theorem admits_read : ∀ j : Json, Admits (Grammatical j) (read j)
  | .object fields => by
      refine Settles.congr ?_ grammatical_object_iff.symm
      rw [read]
      exact (admits_readFields fields).bind_ok
  | .null | .bool _ | .number _ | .string _ | .array _ => admits_query (by rintro ⟨⟩) _

theorem admits_readFields : ∀ fields : List (String × Json),
    Admits (∀ e ∈ fields, Clause e.1 e.2) (readFields fields)
  | [] => admits_ok (List.forall_mem_nil _) []
  | (key, operand) :: rest => by
      refine Settles.congr ?_ List.forall_mem_cons.symm
      rw [readFields]
      exact (admits_readClause key operand).bind fun now => (admits_readFields rest).bind_ok

theorem admits_readClause (key : String) : ∀ operand : Json,
    Admits (Clause key operand) (readClause key operand) := by
  intro operand
  unfold readClause
  split
  · rename_i combine hcombine
    have hkey : key ∈ ["$and", "$or", "$nor"] := combinator?_isSome_iff.1 (by rw [hcombine]; rfl)
    refine Settles.congr ?_ (clause_combinator_iff hkey).symm
    split
    · exact admits_query (by simp) _
    · rename_i items hne
      refine (admits_readItems items).bind_ok.congr ⟨fun h => ⟨items, rfl, hne, h⟩, ?_⟩
      rintro ⟨_, ⟨⟩, -, h⟩
      exact h
    · rename_i hempty harray
      refine admits_query ?_ _
      rintro ⟨items, rfl, hne, -⟩
      exact harray items rfl
  · rename_i hnone
    have hkey : key ∉ ["$and", "$or", "$nor"] := by
      rw [← combinator?_isSome_iff, hnone]
      simp
    refine Settles.congr ?_ (clause_field_iff hkey).symm
    split
    · rename_i hoperator
      exact admits_query (by simp [hoperator]) _
    · rename_i hplain
      exact (admits_readField key operand).congr
        (and_iff_right (Bool.eq_false_iff.2 hplain)).symm

theorem admits_readItems : ∀ items : List Json,
    Admits (∀ j ∈ items, Grammatical j) (readItems items)
  | [] => admits_ok (List.forall_mem_nil _) []
  | j :: rest => by
      refine Settles.congr ?_ List.forall_mem_cons.symm
      rw [readItems]
      exact (admits_read j).bind fun f => (admits_readItems rest).bind_ok

end

/-- **What is a filter.** JSON of the grammar is read as a filter; any other JSON is refused as a
malformed query. -/
theorem ofJson_of_grammar (j : Json) :
    (Grammatical j ∧ ∃ f, ofJson j = .ok f) ∨
      (¬ Grammatical j ∧ ∃ fault, ofJson j = .error (.query fault)) := by
  rcases admits_read j with h | ⟨h, e, he, fault, rfl⟩
  · exact .inl h
  · exact .inr ⟨h, fault, he⟩

end Filter

end DocStore
