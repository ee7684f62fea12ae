import DocStore.Filter.Basic
import DocStore.Proofs.Reading

/-!
# Filters read with a cache

A filter that is accepted on its own is read the same with every cache that patterns were compiled
with, and two caches never read one filter differently, though one of them may refuse it:
`Filter.steady_read`. A filter that asks for patterns leaves the cache behind that compiling them in
order leads to.
-/

set_option autoImplicit false

namespace DocStore

/-! ## Conditions -/

namespace Condition

theorem steady_readRegex (field : String) (ops : Fields Json) (operand : Json) :
    Steady (readRegex field ops operand) (readRegex field ops operand) := by
  refine (steady_require _ _).bind fun source => ?_
  have hcompile (options : String) : Steady
      (do return regex (← Reading.pattern source options))
      (do return regex (← Reading.pattern source options)) :=
    (steady_pattern source options).bind fun p => steady_pure _
  cases Fields.get? ops "$options" with
  | none => exact (steady_pure "").bind hcompile
  | some j => exact (steady_require _ _).bind hcompile

theorem steady_readOperator (field : String) (ops : Fields Json) (op : String) (operand : Json) :
    Steady (readOperator field ops op operand) (readOperator field ops op operand) := by
  unfold readOperator
  split
  · exact steady_pure _
  · split
    · exact (steady_require _ _).bind fun items => steady_pure _
    · split
      · exact (steady_require _ _).bind fun flag => steady_pure _
      · exact (steady_require _ _).bind fun n => steady_pure _
      · exact (steady_readRegex field ops operand).map some
      · exact steady_pure none
      · exact steady_fail _

theorem steady_readEach (field : String) (ops : Fields Json) (rest : List (String × Json)) :
    Steady (readEach field ops rest) (readEach field ops rest) := by
  induction rest with
  | nil => exact steady_pure []
  | cons e rest ih =>
      exact (steady_readOperator field ops e.1 e.2).bind fun now =>
        ih.bind fun later => steady_pure _

theorem steady_readOperators (field : String) (ops : Fields Json) :
    Steady (readOperators field ops) (readOperators field ops) := by
  refine (steady_readEach field ops ops).bind fun conditions => ?_
  split
  · exact steady_fail _
  · exact steady_pure conditions

/-! ### Patterns -/

/-- A pattern without options. -/
theorem readOperators_regex (field source : String) :
    (readOperators field [("$regex", .string source)] : CachedReading (List Condition)) = do
      return [.regex (← Reading.pattern source "")] := by
  have hread : (readOperator field [("$regex", .string source)] "$regex" (.string source) :
      CachedReading (Option Condition)) =
        some <$> readRegex field [("$regex", .string source)] (.string source) := rfl
  rw [readOperators, readEach, hread]
  simp [readEach, readRegex, Reading.require, Json.string?, Fields.get?, Fields.contains]

theorem readOperators_regex_options (field source options : String) :
    (readOperators field [("$regex", .string source), ("$options", .string options)] :
      CachedReading (List Condition)) = do
        return [.regex (← Reading.pattern source options)] := by
  have hread : (readOperator field [("$regex", .string source), ("$options", .string options)]
      "$regex" (.string source) : CachedReading (Option Condition)) =
        some <$> readRegex field [("$regex", .string source), ("$options", .string options)]
          (.string source) := rfl
  have hoptions : (readOperator field [("$regex", .string source), ("$options", .string options)]
      "$options" (.string options) : CachedReading (Option Condition)) = pure none := rfl
  rw [readOperators, readEach, readEach, hread, hoptions]
  simp [readEach, readRegex, Reading.require, Json.string?, Fields.get?, Fields.contains]

end Condition

/-! ## Filters -/

namespace Filter

theorem steady_readField (path : String) (operand : Json) :
    Steady (readField path operand) (readField path operand) := by
  unfold readField
  split
  · split
    · split
      · split
        · exact steady_fail _
        · exact (Condition.steady_readOperators path _).bind fun cs => steady_pure _
      · exact steady_pure _
    · exact steady_pure _
  · exact steady_fail _

mutual

/-- **A cache of patterns does not change what a filter means**: it may let a filter through that
is refused otherwise, and that is all. -/
theorem steady_read : ∀ j : Json, Steady (read j) (read j)
  | .object fields => (steady_readFields fields).bind fun fs => steady_pure _
  | .null | .bool _ | .number _ | .string _ | .array _ => steady_fail _

theorem steady_readFields : ∀ fields : List (String × Json),
    Steady (readFields fields) (readFields fields)
  | [] => steady_pure []
  | (key, operand) :: rest =>
      (steady_readClause key operand).bind fun now =>
        (steady_readFields rest).bind fun later => steady_pure _

theorem steady_readClause (key : String) : ∀ operand : Json,
    Steady (readClause key operand) (readClause key operand) := by
  intro operand
  unfold readClause
  split
  · split
    · exact steady_fail _
    · rename_i items _
      exact (steady_readItems items).bind fun fs => steady_pure _
    · exact steady_fail _
  · split
    · exact steady_fail _
    · exact steady_readField key operand

theorem steady_readItems : ∀ items : List Json, Steady (readItems items) (readItems items)
  | [] => steady_pure []
  | j :: rest =>
      (steady_read j).bind fun f => (steady_readItems rest).bind fun fs => steady_pure _

end

/-! ### Patterns -/

/-- A field that matches a pattern. -/
def matching (path source : String) : Json :=
  .object [(path, .object [("$regex", .string source)])]

/-- An alternative is read from its clauses. -/
theorem readClause_or {items : List Json} (h : items ≠ []) :
    (readClause "$or" (.array items) : CachedReading (List Filter)) = do
      return [or (← readItems items)] := by
  cases items with
  | nil => exact absurd rfl h
  | cons j rest => rfl

section Path

variable {path : String} (hcombinator : combinator? path = none)
  (hpath : Segments.isPath path = true) (hname : Segments.isOperator path = false)
include hcombinator hpath hname

/-- The clause of a field with operators. -/
theorem readClause_of_operators {ops : Fields Json}
    (hops : ops ≠ [] ∧ ∀ e ∈ ops, Segments.isOperator e.1 = true)
    (hdate : Fields.contains ops Value.dateField = false) :
    (readClause path (.object ops) : CachedReading (List Filter)) = do
      return (← Condition.readOperators path ops).map (field path) := by
  have hany : ops.any (fun e => Segments.isOperator e.1) = true := by
    obtain ⟨e, he⟩ := List.exists_mem_of_ne_nil ops hops.1
    exact List.any_eq_true.2 ⟨e, he, hops.2 e he⟩
  have hplain : List.find? (fun e : String × Json => !Segments.isOperator e.1) ops = none :=
    List.find?_eq_none.2 fun e he => by simp [hops.2 e he]
  rw [readClause, hcombinator]
  simp [hname, readField, hpath, isOperatorMap, hany, hdate, hplain]

/-- The clause of a field with a pattern and its options. -/
theorem readClause_pattern (source options : String) :
    (readClause path (.object [("$regex", .string source), ("$options", .string options)]) :
      CachedReading (List Filter)) = do
        return [field path (.regex (← Reading.pattern source options))] := by
  have hregex : Segments.isOperator "$regex" = true := by decide +kernel
  have hoptions : Segments.isOperator "$options" = true := by decide +kernel
  rw [readClause_of_operators hcombinator hpath hname (by simp [hregex, hoptions]) rfl,
    Condition.readOperators_regex_options]
  simp

theorem read_matching (source : String) : (read (matching path source) : CachedReading Filter) = do
    return field path (.regex (← Reading.pattern source "")) := by
  have hregex : Segments.isOperator "$regex" = true := by decide +kernel
  rw [matching, read, readFields, readClause_of_operators hcombinator hpath hname
    (by simp [hregex]) rfl, Condition.readOperators_regex]
  simp [readFields, conjunction]

/-- Patterns for a field leave the cache behind that compiling them in order leads to. -/
theorem run_readItems_matching {sources : List String}
    (hcompiles : ∀ source ∈ sources, ∃ regex, Pattern.compileRegex source "" = .ok regex)
    {others : List Json} {gs : List Filter} (hothers : Always (readItems others) gs)
    (cache : PatternCache) : ∃ fs : List Filter,
      (readItems (sources.map (matching path) ++ others) :
        CachedReading (List Filter)).run.run cache =
          (.ok (fs ++ gs), cache.compileFrom (sources.map fun source => (source, ""))) := by
  induction sources generalizing cache with
  | nil => exact ⟨[], hothers cache⟩
  | cons source rest ih =>
      obtain ⟨⟨regex, hregex⟩, hrest⟩ := List.forall_mem_cons.1 hcompiles
      obtain ⟨regex', hcompile⟩ := PatternCache.exists_compile_eq cache hregex
      obtain ⟨fs, hfs⟩ := ih hrest (cache.compile source "").2
      have hread : (read (matching path source) : CachedReading Filter).run.run cache =
          (.ok (field path (.regex { source, options := "", regex := regex' })),
            (cache.compile source "").2) := by
        rw [read_matching hcombinator hpath hname, hcompile]
        exact run_bind_of_eq hcompile
      refine ⟨field path (.regex { source, options := "", regex := regex' }) :: fs, ?_⟩
      rw [List.map_cons, List.cons_append, readItems, run_bind_of_eq hread, run_bind_of_eq hfs]
      rfl

end Path

end Filter

end DocStore
