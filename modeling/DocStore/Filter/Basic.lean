import DocStore.Filter.Condition

/-!
# Filters

A filter is a tree of combinators over conditions on fields. Several fields, and several operators
on a field, must all hold. A malformed filter is refused when it is read; a filter that was read
can be applied to any document. Reading several clauses, or asking them all, goes through the list
of them one by one.
-/

set_option autoImplicit false

namespace DocStore

/-- A filter of documents. -/
inductive Filter where
  | and (clauses : List Filter)
  | or (clauses : List Filter)
  | nor (clauses : List Filter)
  | field (path : String) (condition : Condition)

namespace Filter

/-- The filter that every document passes. -/
def all : Filter := and []

/-! ## Meaning -/

mutual

/-- Whether an object with the given fields passes. -/
def holds (fields : Fields Value) : Filter → Bool
  | and clauses => holdsAll fields clauses
  | or clauses => holdsAny fields clauses
  | nor clauses => !holdsAny fields clauses
  | field path condition => condition.holds (Value.fieldTerminals fields path)

/-- Whether an object passes all filters. -/
def holdsAll (fields : Fields Value) : List Filter → Bool
  | [] => true
  | f :: rest => holds fields f && holdsAll fields rest

/-- Whether an object passes one of the filters. -/
def holdsAny (fields : Fields Value) : List Filter → Bool
  | [] => false
  | f :: rest => holds fields f || holdsAny fields rest

end

/-- Whether a value passes; what is no object passes the filter without clauses only. -/
def isMatch (f : Filter) : Value → Bool
  | .object fields => holds fields f
  | _ =>
    match f with
    | and [] => true
    | _ => false

mutual

/-- The equalities that every object which passes must satisfy, as far as they stand at the top or
in conjunctions. -/
def equalitySeeds : Filter → List (String × Value)
  | and clauses => equalitySeedsOf clauses
  | field path (.eq v) => [(path, v)]
  | _ => []

/-- The equalities of several filters. -/
def equalitySeedsOf : List Filter → List (String × Value)
  | [] => []
  | f :: rest => equalitySeeds f ++ equalitySeedsOf rest

end

/-! ## Reading -/

/-- The combinator that an operator stands for. -/
def combinator? : String → Option (List Filter → Filter)
  | "$and" => some and
  | "$or" => some or
  | "$nor" => some nor
  | _ => none

/-- Whether an operand holds operators: an object with a key that is written like one, dates
apart. -/
def isOperatorMap (fields : Fields Json) : Bool :=
  fields.any (fun e => Segments.isOperator e.1) &&
    !(fields.length == 1 && Fields.contains fields Value.dateField)

variable {m : Type → Type} [Reading m]

/-- Reads the conditions on a field: operators, or a value that it must equal. -/
def readField (path : String) (operand : Json) : m (List Filter) :=
  if Segments.isPath path then
    match operand with
    | .object ops =>
      if isOperatorMap ops then
        match ops.find? (fun e => !Segments.isOperator e.1) with
        | some (key, _) => Reading.fail (.query (.mixedOperand path key))
        | none => do return (← Condition.readOperators path ops).map (field path)
      else pure [field path (.eq (Value.ofJson operand))]
    | _ => pure [field path (.eq (Value.ofJson operand))]
  else Reading.fail (.query (.filterPath path))

/-- The conjunction of clauses; a single clause stands for itself. -/
def conjunction : List Filter → Filter
  | [f] => f
  | clauses => and clauses

mutual

/-- Reads a filter. -/
def read : Json → m Filter
  | .object fields => do return conjunction (← readFields fields)
  | other => Reading.fail (.query (.filterShape other))

/-- Reads the clauses of an object. -/
def readFields : List (String × Json) → m (List Filter)
  | [] => pure []
  | (key, operand) :: rest => do
    let now ← readClause key operand
    let later ← readFields rest
    return now ++ later

/-- Reads one clause: a combinator of filters, or conditions on a field. -/
def readClause (key : String) (operand : Json) : m (List Filter) :=
  match combinator? key with
  | some combine =>
    match operand with
    | .array [] => Reading.fail (.query (.noClauses key))
    | .array items => do return [combine (← readItems items)]
    | _ => Reading.fail (.query (.clauseList key))
  | none =>
    if Segments.isOperator key then Reading.fail (.query (.unknownCombinator key))
    else readField key operand

/-- Reads a list of filters. -/
def readItems : List Json → m (List Filter)
  | [] => pure []
  | j :: rest => do
    let f ← read j
    let fs ← readItems rest
    return f :: fs

end

/-- The filter that JSON stands for, each pattern compiled from its own source. -/
def ofJson (j : Json) : Result Filter := read j

/-! ## Clauses one by one -/

section Clauses

variable (m : Fields Value)

theorem holdsAll_eq_all (clauses : List Filter) : holdsAll m clauses = clauses.all (holds m) := by
  induction clauses with
  | nil => rfl
  | cons f rest ih => rw [holdsAll, ih, List.all_cons]

theorem holdsAny_eq_any (clauses : List Filter) : holdsAny m clauses = clauses.any (holds m) := by
  induction clauses with
  | nil => rfl
  | cons f rest ih => rw [holdsAny, ih, List.any_cons]

theorem holdsAll_append (clauses others : List Filter) :
    holdsAll m (clauses ++ others) = (holdsAll m clauses && holdsAll m others) := by
  simp only [holdsAll_eq_all, List.all_append]

theorem holdsAll_flatten (clauses : List (List Filter)) :
    holdsAll m clauses.flatten = clauses.all (holdsAll m) := by
  induction clauses with
  | nil => rfl
  | cons fs rest ih => rw [List.flatten_cons, holdsAll_append, ih, List.all_cons]

theorem holds_conjunction (clauses : List Filter) :
    holds m (conjunction clauses) = holdsAll m clauses := by
  unfold conjunction
  split
  · rw [holdsAll, holdsAll, Bool.and_true]
  · rw [holds]

/-- Conditions on one field are applied to what its path reaches. -/
theorem holdsAll_map_field (path : String) (conditions : List Condition) :
    holdsAll m (conditions.map (field path)) =
      conditions.all fun c => c.holds (Value.fieldTerminals m path) := by
  rw [holdsAll_eq_all, List.all_map]
  exact congrArg conditions.all (funext fun c => by rw [Function.comp, holds])

end Clauses

end Filter

theorem Condition.readEach_eq (field : String) (ops : Fields Json) (rest : List (String × Json)) :
    (readEach field ops rest : Result (List Condition)) =
      List.flatMap Option.toList <$> rest.mapM fun e => readOperator field ops e.1 e.2 := by
  induction rest with
  | nil => rfl
  | cons e rest ih => simp [readEach, ih]

theorem Filter.readFields_eq (fields : List (String × Json)) :
    (readFields fields : Result (List Filter)) =
      List.flatten <$> fields.mapM fun e => readClause e.1 e.2 := by
  induction fields with
  | nil => rfl
  | cons e rest ih => simp [readFields, ih]

theorem Filter.readItems_eq (items : List Json) :
    (readItems items : Result (List Filter)) = items.mapM read := by
  induction items with
  | nil => rfl
  | cons j rest ih => rw [readItems, ih, List.mapM_cons]

end DocStore
