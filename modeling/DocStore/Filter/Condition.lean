import DocStore.Pattern
import DocStore.Value.Order
import DocStore.Value.Path

/-!
# Conditions

A condition is one operator of a filter. It is applied to the values that the path of its field
reaches; for an array among them it may hold of the array or of one of its items.
-/

set_option autoImplicit false

namespace DocStore

/-- A condition on a field. -/
inductive Condition where
  | eq (v : Value)
  | ne (v : Value)
  | gt (v : Value)
  | gte (v : Value)
  | lt (v : Value)
  | lte (v : Value)
  | oneOf (vs : List Value)
  | noneOf (vs : List Value)
  | present (flag : Bool)
  | regex (p : Pattern)
  | size (n : Nat)

namespace Condition

/-- The operator of a condition. -/
def name : Condition → String
  | eq _ => "$eq"
  | ne _ => "$ne"
  | gt _ => "$gt"
  | gte _ => "$gte"
  | lt _ => "$lt"
  | lte _ => "$lte"
  | oneOf _ => "$in"
  | noneOf _ => "$nin"
  | present _ => "$exists"
  | regex _ => "$regex"
  | size _ => "$size"

/-! ## Meaning -/

/-- The values that a condition is tried on for one value: itself and, in an array, its items. -/
def candidates (v : Value) : List Value := v :: (v.array?.getD [])

/-- Whether a test holds of a candidate of one of the values. -/
def anyCandidate (test : Value → Bool) (terminals : List Value) : Bool :=
  terminals.any fun v => (candidates v).any test

/-- Whether a candidate of the same class as a bound stands to it in an accepted order. -/
def anyCompared (accept : Ordering → Bool) (bound : Value) (terminals : List Value) : Bool :=
  anyCandidate (fun v => (Value.compareSameClass? v bound).any accept) terminals

/-- Whether a condition holds of the values that a path reaches. If there are none, only the
condition that there be none holds. -/
def holds (c : Condition) (terminals : List Value) : Bool :=
  match terminals with
  | [] =>
    match c with
    | present flag => !flag
    | _ => false
  | _ =>
    match c with
    | eq v => anyCandidate (Value.equal · v) terminals
    | ne v => !anyCandidate (Value.equal · v) terminals
    | gt v => anyCompared (· == .gt) v terminals
    | gte v => anyCompared (· != .lt) v terminals
    | lt v => anyCompared (· == .lt) v terminals
    | lte v => anyCompared (· != .gt) v terminals
    | oneOf vs => anyCandidate (fun v => vs.any (Value.equal · v)) terminals
    | noneOf vs => !anyCandidate (fun v => vs.any (Value.equal · v)) terminals
    | present flag => flag
    | regex p => anyCandidate (fun v => v.string?.any p.isMatch) terminals
    | size n => terminals.any fun v => v.array?.any (·.length == n)

/-! ## Reading -/

variable {m : Type → Type} [Reading m]

/-- The operators that compare with any value. -/
def comparison? : String → Option (Value → Condition)
  | "$eq" => some eq
  | "$ne" => some ne
  | "$gt" => some gt
  | "$gte" => some gte
  | "$lt" => some lt
  | "$lte" => some lte
  | _ => none

/-- The operators that look for a value in a list. -/
def membership? : String → Option (List Value → Condition)
  | "$in" => some oneOf
  | "$nin" => some noneOf
  | _ => none

/-- The flag that an operand of `$exists` stands for: a boolean, or whether a number is not
zero. -/
def flag? : Json → Option Bool
  | .bool b => some b
  | .number n => some (Binary64.isNaN n.toFloat || Binary64.scaled n.toFloat != 0)
  | _ => none

/-- Reads a pattern with the options that stand next to it. -/
def readRegex (field : String) (ops : Fields Json) (operand : Json) : m Condition := do
  let source ← Reading.require operand.string? (.query (.regexOperand field))
  let options ← match Fields.get? ops "$options" with
    | none => pure ""
    | some j => Reading.require j.string? (.query (.optionsOperand field))
  return regex (← Reading.pattern source options)

/-- Reads one operator; `$options` is part of `$regex` and stands for nothing of its own. -/
def readOperator (field : String) (ops : Fields Json) (op : String) (operand : Json) :
    m (Option Condition) :=
  match comparison? op with
  | some make => pure (some (make (Value.ofJson operand)))
  | none =>
    match membership? op with
    | some make => do
      let items ← Reading.require operand.array? (.query (.listOperand op field))
      return some (make (Value.ofJsonItems items))
    | none =>
      match op with
      | "$exists" => do
        return some (present (← Reading.require (flag? operand) (.query (.existsOperand field))))
      | "$size" => do
        return some (size (← Reading.require operand.toUInt64? (.query (.sizeOperand field))))
      | "$regex" => some <$> readRegex field ops operand
      | "$options" => pure none
      | _ => Reading.fail (.query (.unknownCondition op field))

/-- Reads operators one by one. -/
def readEach (field : String) (ops : Fields Json) : List (String × Json) → m (List Condition)
  | [] => pure []
  | (op, operand) :: rest => do
    let now ← readOperator field ops op operand
    let later ← readEach field ops rest
    return now.toList ++ later

/-- Reads the operators of a field. -/
def readOperators (field : String) (ops : Fields Json) : m (List Condition) := do
  let conditions ← readEach field ops ops
  if Fields.contains ops "$options" && !Fields.contains ops "$regex" then
    Reading.fail (.query (.optionsAlone field))
  else
    return conditions

end Condition

end DocStore
