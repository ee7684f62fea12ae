import DocStore.Expr.Operators
import DocStore.Value.Order
import DocStore.Value.Path

/-!
# The value of an expression

`Expr.eval?` gives no value for a field that the document does not have. Inside most operators a
missing value counts as null; an object leaves out the fields that are missing.
-/

set_option autoImplicit false

namespace DocStore.Expr

mutual

/-- The value of an expression on a document, if it has one there. -/
def eval? (doc : Value) : Expr → Result (Option Value)
  | literal v => .ok (some v)
  | field path => .ok (doc.resolve? path)
  | root => .ok (some doc)
  | object fields => do return some (.object (← evalFields doc [] fields))
  | array items => do return some (.array (← evalItems doc items))
  | add args => do return some (← Operators.sum (← evalItems doc args))
  | multiply args => do return some (← Operators.fold .multiply (← evalItems doc args))
  | subtract a b => do
    let x ← eval? doc a
    let y ← eval? doc b
    return some (← Operators.difference (x.getD .null) (y.getD .null))
  | divide a b => do
    let x ← eval? doc a
    let y ← eval? doc b
    return some (← Operators.quotient (x.getD .null) (y.getD .null))
  | compare relation a b => do
    let x ← eval? doc a
    let y ← eval? doc b
    return some (.bool (relation.holds (Value.compareOptional x y)))
  | and args => do return some (.bool (← evalAll doc args))
  | or args => do return some (.bool (← evalAny doc args))
  | not arg => do
    let v ← eval? doc arg
    return some (.bool !(v.getD .null).isTruthy)
  | cond condition yes no => do
    let v ← eval? doc condition
    if (v.getD .null).isTruthy then eval? doc yes else eval? doc no
  | switch branches otherwise => do
    match ← evalBranches doc branches with
    | some result => return result
    | none => eval? doc otherwise
  | regexMatch input pattern => do
    let v ← eval? doc input
    return some (← Operators.isMatch pattern (v.getD .null))
  | dateToString format date => do
    let v ← eval? doc date
    return some (← Operators.dateText format (v.getD .null))
  | take items count => do
    let v ← eval? doc items
    let n ← eval? doc count
    return some (← Operators.take (v.getD .null) (n.getD .null))
  | slice items position count => do
    let p ← eval? doc position
    let v ← eval? doc items
    let n ← eval? doc count
    return some (← Operators.slice (v.getD .null) (p.getD .null) (n.getD .null))

/-- The fields that have a value, after the given ones. -/
def evalFields (doc : Value) (before : Fields Value) :
    List (String × Expr) → Result (Fields Value)
  | [] => .ok before
  | (name, e) :: rest => do
    match ← eval? doc e with
    | some v => evalFields doc (Fields.insert before name v) rest
    | none => evalFields doc before rest

/-- The values of expressions, null where there is none. -/
def evalItems (doc : Value) : List Expr → Result (List Value)
  | [] => .ok []
  | e :: rest => do
    let v ← eval? doc e
    let vs ← evalItems doc rest
    return v.getD .null :: vs

/-- Whether all values are truthy; what follows the first that is not stays unevaluated. -/
def evalAll (doc : Value) : List Expr → Result Bool
  | [] => .ok true
  | e :: rest => do
    let v ← eval? doc e
    if (v.getD .null).isTruthy then evalAll doc rest else return false

/-- Whether a value is truthy; what follows the first that is stays unevaluated. -/
def evalAny (doc : Value) : List Expr → Result Bool
  | [] => .ok false
  | e :: rest => do
    let v ← eval? doc e
    if (v.getD .null).isTruthy then return true else evalAny doc rest

/-- The result of the first branch whose case is truthy, if there is such a branch. -/
def evalBranches (doc : Value) : List (Expr × Expr) → Result (Option (Option Value))
  | [] => .ok none
  | (case, result) :: rest => do
    let v ← eval? doc case
    if (v.getD .null).isTruthy then return some (← eval? doc result)
    else evalBranches doc rest

end

/-- The value of an expression on a document, null where there is none. -/
def eval (e : Expr) (doc : Value) : Result Value := do
  return (← eval? doc e).getD .null

end DocStore.Expr
