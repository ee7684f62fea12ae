import DocStore.Expr.Basic
import DocStore.Text.Segments
import DocStore.Value.Json

/-!
# Reading expressions

Texts that start with a dollar sign are references to fields or variables, an object with one key
of that kind is an operator, and everything else stands for itself with expressions inside.
-/

set_option autoImplicit false

namespace DocStore

/-- The error of a malformed expression. -/
def ExprFault.toError (f : ExprFault) : Error := .config (.expr f)

namespace Expr

variable {m : Type → Type} [Reading m]

/-- Fails for a malformed expression. -/
def fail {α : Type} (f : ExprFault) : m α := Reading.fail f.toError

/-- Reads the name of a variable with the path that may follow it after a dot. -/
def readVariable (cs : List Char) : m Expr :=
  let name := cs.takeWhile (· != '.')
  if name = "ROOT".toList ∨ name = "CURRENT".toList then
    match cs.dropWhile (· != '.') with
    | [] => pure root
    | _ :: path => pure (field (String.ofList path))
  else fail (.unknownVariable (String.ofList name))

/-- Reads a text: a variable, a path after a dollar sign, or itself. -/
def readText (text : String) : m Expr :=
  match text.toList with
  | '$' :: '$' :: cs => readVariable cs
  | '$' :: cs =>
    let path := String.ofList cs
    if Segments.isPath path then pure (field path) else fail (.fieldReference text)
  | _ => pure (literal (.string text))

/-- The argument of a name, with the fact that it is smaller. -/
def required (operator key : String) (obj : Fields Json) :
    m { j : Json // sizeOf j < sizeOf obj } :=
  Reading.require (Fields.find? obj key) (ExprFault.toError (.missingArgument operator key))

/-- Two arguments. -/
def pair (operator : String) : List Expr → m (Expr × Expr)
  | [a, b] => pure (a, b)
  | args => fail (.arity operator 2 args.length)

/-- Three arguments. -/
def triple (operator : String) : List Expr → m (Expr × Expr × Expr)
  | [a, b, c] => pure (a, b, c)
  | args => fail (.arity operator 3 args.length)

/-- The text of an optional argument. -/
def textArgument (obj : Fields Json) (key standard : String) (f : ExprFault) : m String :=
  match Fields.get? obj key with
  | none => pure standard
  | some (.string s) => pure s
  | some _ => fail f

/-- The pattern of a match. -/
def readPattern (obj : Fields Json) : m Pattern := do
  let raw ← required "$regexMatch" "regex" obj
  let source ← Reading.require raw.1.string? (ExprFault.toError .regexMatchPattern)
  let options ← textArgument obj "options" "" .regexMatchOptions
  Reading.mapError (.config <| .regexMatch ·) (Reading.pattern source options)

/-- The format of a date text; the only zone is UTC. -/
def readFormat (obj : Fields Json) : m DateFormat := do
  let text ← textArgument obj "format" DateFormat.standard .dateFormat
  let zone ← textArgument obj "timezone" "UTC" .timezone
  if zone = "UTC" then
    match DateFormat.parse text with
    | .ok format => pure format
    | .error f => fail f
  else fail .timezone

/-- Whether the names are those of a condition and its two results. -/
def unknownCondKey? (obj : Fields Json) : Option String :=
  obj.keys.find? fun k => !(["if", "then", "else"].contains k)

mutual

/-- Reads an expression. -/
def read (j : Json) : m Expr :=
  match j with
  | .string text => readText text
  | .array items => do return array (← readItems items)
  | .object [(key, operand)] =>
    if Segments.isOperator key then readOperator key operand
    else do return object [(key, ← read operand)]
  | .object fields =>
    match (Fields.keys fields).find? Segments.isOperator with
    | some operator => fail (.severalKeys operator)
    | none => do return object (← readFields fields)
  | other => pure (literal (.ofJson other))
termination_by (sizeOf j, 0)

/-- Reads expressions one by one. -/
def readItems (items : List Json) : m (List Expr) :=
  match items with
  | [] => pure []
  | j :: rest => do
    let e ← read j
    let es ← readItems rest
    return e :: es
termination_by (sizeOf items, 0)

/-- Reads the fields of an object. -/
def readFields (fields : List (String × Json)) : m (List (String × Expr)) :=
  match fields with
  | [] => pure []
  | (name, j) :: rest => do
    let e ← read j
    let es ← readFields rest
    return (name, e) :: es
termination_by (sizeOf fields, 0)

/-- Reads the arguments of an operator; what is no array is the only argument. -/
def readArguments (operator : String) (operand : Json) : m (List Expr) :=
  match operand with
  | .array items => readItems items
  | single => do
    let e ← Reading.mapError (.config <| .argument operator ·) (read single)
    return [e]
termination_by (sizeOf operand, 1)

/-- Reads the arguments of an operator, which must be in an array. -/
def readExactly (operand : Json) : m (List Expr) :=
  match operand with
  | .array items => readItems items
  | _ => pure []
termination_by (sizeOf operand, 1)

/-- Reads an operator with its operand. -/
def readOperator (operator : String) (operand : Json) : m Expr :=
  match operator with
  | "$literal" => pure (literal (.ofJson operand))
  | "$date" => pure (literal (.ofJson (.object [(operator, operand)])))
  | "$add" => do return add (← readArguments operator operand)
  | "$multiply" => do return multiply (← readArguments operator operand)
  | "$subtract" => do
    let (a, b) ← pair operator (← readExactly operand)
    return subtract a b
  | "$divide" => do
    let (a, b) ← pair operator (← readExactly operand)
    return divide a b
  | "$and" => do return and (← readArguments operator operand)
  | "$or" => do return or (← readArguments operator operand)
  | "$not" => do
    match ← readArguments operator operand with
    | [arg] => return not arg
    | _ => fail .notArity
  | "$cond" => readCond operand
  | "$switch" => readSwitch operand
  | "$regexMatch" => readRegexMatch operand
  | "$dateToString" => readDateToString operand
  | "$slice" => do
    match ← readArguments operator operand with
    | [items, count] => return take items count
    | [items, position, count] => return slice items position count
    | _ => fail .sliceArity
  | _ =>
    match Comparison.ofName? operator with
    | none => fail (.unknownOperator operator)
    | some relation => do
      let (a, b) ← pair operator (← readExactly operand)
      return compare relation a b
termination_by (sizeOf operand, 3)

/-- Reads a condition with its two results. -/
def readCond (operand : Json) : m Expr :=
  match operand with
  | .array items => do
    let (condition, yes, no) ← triple "$cond" (← readItems items)
    return cond condition yes no
  | .object obj =>
    match unknownCondKey? obj with
    | some key => fail (.condKey key)
    | none => do
      let c ← required "$cond" "if" obj
      have := c.2
      let condition ← read c.1
      let y ← required "$cond" "then" obj
      have := y.2
      let yes ← read y.1
      let n ← required "$cond" "else" obj
      have := n.2
      let no ← read n.1
      return cond condition yes no
  | _ => fail .condShape
termination_by (sizeOf operand, 2)

/-- Reads a choice between branches. -/
def readSwitch (operand : Json) : m Expr :=
  match operand with
  | .object obj => do
    let b ← required "$switch" "branches" obj
    have := b.2
    let branches ← readBranches b.1
    match Fields.find? obj "default" with
    | none => fail .switchDefault
    | some d =>
      have := d.2
      return switch branches (← read d.1)
  | _ => fail .switchShape
termination_by (sizeOf operand, 2)

/-- Reads the branches of a choice. -/
def readBranches (j : Json) : m (List (Expr × Expr)) :=
  match j with
  | .array [] => fail .switchEmpty
  | .array items => readEachBranch items
  | _ => fail .switchBranches
termination_by (sizeOf j, 1)

/-- Reads branches one by one. -/
def readEachBranch (items : List Json) : m (List (Expr × Expr)) :=
  match items with
  | [] => pure []
  | j :: rest => do
    let branch ← readBranch j
    let branches ← readEachBranch rest
    return branch :: branches
termination_by (sizeOf items, 0)

/-- Reads a case with its result. -/
def readBranch (j : Json) : m (Expr × Expr) :=
  match j with
  | .object obj => do
    let c ← required "$switch branch" "case" obj
    have := c.2
    let case ← read c.1
    let t ← required "$switch branch" "then" obj
    have := t.2
    let result ← read t.1
    return (case, result)
  | _ => fail .switchBranch
termination_by (sizeOf j, 1)

/-- Reads a match of a text with a pattern. -/
def readRegexMatch (operand : Json) : m Expr :=
  match operand with
  | .object obj => do
    let i ← required "$regexMatch" "input" obj
    have := i.2
    let input ← read i.1
    let pattern ← readPattern obj
    return regexMatch input pattern
  | _ => fail .regexMatchShape
termination_by (sizeOf operand, 2)

/-- Reads the text of a date. -/
def readDateToString (operand : Json) : m Expr :=
  match operand with
  | .object obj => do
    let format ← readFormat obj
    let d ← required "$dateToString" "date" obj
    have := d.2
    return dateToString format (← read d.1)
  | _ => fail .dateToStringShape
termination_by (sizeOf operand, 2)

end

/-- The expression that JSON stands for, each pattern compiled from its own source. -/
def ofJson (j : Json) : Result Expr := read j

end Expr

end DocStore
