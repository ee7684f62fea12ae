import DocStore.Expr.Eval
import DocStore.Expr.Reader
import DocStore.Value.Key

/-!
# Accumulators

An accumulator folds the values that an expression has on the documents of a group. A document
feeds all accumulators of a group or none: its inputs are computed before any of them is fed.
-/

set_option autoImplicit false

namespace DocStore

/-- What an accumulator computes. -/
inductive AccumulatorOp where
  | sum
  | avg
  | min
  | max
  | push
  | addToSet
  | first
  | last
deriving DecidableEq, Repr

/-- The operation that a name stands for. -/
def AccumulatorOp.ofName? : String → Option AccumulatorOp
  | "$sum" => some .sum
  | "$avg" => some .avg
  | "$min" => some .min
  | "$max" => some .max
  | "$push" => some .push
  | "$addToSet" => some .addToSet
  | "$first" => some .first
  | "$last" => some .last
  | _ => none

/-- An operation with the expression that gives its inputs. -/
structure Accumulator where
  op : AccumulatorOp
  input : Expr

/-- What an accumulator has gathered from the inputs so far. -/
inductive Accumulation where
  | sum (total : Value)
  | avg (total : Float) (count : Nat)
  | min (least : Option Value)
  | max (greatest : Option Value)
  | push (items : List Value)
  | addToSet (items : List Value)
  | first (v : Option Value)
  | last (v : Option Value)

/-- What an accumulator has gathered before the first input. -/
def AccumulatorOp.start : AccumulatorOp → Accumulation
  | sum => .sum (.int 0)
  | avg => .avg 0 0
  | min => .min none
  | max => .max none
  | push => .push []
  | addToSet => .addToSet []
  | first => .first none
  | last => .last none

namespace Accumulation

/-- A number added to a total; nothing else changes it. -/
def addTo (total input : Value) : Value :=
  if input.isNumber then Arithmetic.add.apply total input else total

/-- The better of a value and an input, which is the one before unless the input compares in the
wanted way; null never counts. -/
def better (wanted : Ordering) (current : Option Value) (input : Value) : Option Value :=
  match current with
  | none => if input.isNull then none else some input
  | some v => if !input.isNull && input.compare v == wanted then some input else some v

/-- A value appended to a list that does not hold one of the same key. -/
def addNew (items : List Value) (v : Value) : List Value :=
  if items.any (·.canonicalKey == v.canonicalKey) then items else items ++ [v]

/-- Feeds a value that is there. -/
def feedValue (v : Value) : Accumulation → Accumulation
  | sum total => sum (addTo total v)
  | avg total count =>
    match v.float? with
    | some f => avg (total + f) (count + 1)
    | none => avg total count
  | min least => min (better .lt least v)
  | max greatest => max (better .gt greatest v)
  | push items => push (items ++ [v])
  | addToSet items => addToSet (addNew items v)
  | first none => first (some v)
  | first (some w) => first (some w)
  | last _ => last (some v)

/-- Feeds an input. A missing one counts as null for the first and the last, and not at all for the
others. -/
def feed (input : Option Value) (acc : Accumulation) : Accumulation :=
  match input, acc with
  | some v, acc => acc.feedValue v
  | none, first none => first (some .null)
  | none, last _ => last (some .null)
  | none, acc => acc

/-- What the accumulator gives for the inputs so far. -/
def result : Accumulation → Value
  | sum total => total
  | avg total count => if count = 0 then .null else .float (total / Binary64.ofNat count)
  | min v => v.getD .null
  | max v => v.getD .null
  | push items => .array items
  | addToSet items => .array items
  | first v => v.getD .null
  | last v => v.getD .null

end Accumulation

/-- Named accumulators, which are computed together. -/
abbrev Accumulators := List (String × Accumulator)

/-- The inputs that a document gives to named accumulators. -/
abbrev Inputs := List (Option Value)

namespace Accumulators

/-- A single count of documents. -/
def count : Accumulators := [("count", { op := .sum, input := .literal (.int 1) })]

/-- The inputs that a document gives, or the first error among them. -/
def inputs (accs : Accumulators) (doc : Value) : Result Inputs :=
  accs.mapM fun a => a.2.input.eval? doc

/-- What the accumulators have gathered before the first document. -/
def start (accs : Accumulators) : List Accumulation := accs.map (·.2.op.start)

/-- Feeds the inputs of a document. -/
def feed (states : List Accumulation) (inputs : Inputs) : List Accumulation :=
  List.zipWith (fun s i => s.feed i) states inputs

/-- Writes the results into fields. -/
def finish (accs : Accumulators) (states : List Accumulation) (out : Fields Value) :
    Fields Value :=
  (accs.zip states).foldl (fun m e => Fields.insert m e.1.1 e.2.result) out

/-- The row of a group with an id, from the inputs of its documents. -/
def row (accs : Accumulators) (id : Value) (group : List Inputs) : Value :=
  .object (finish accs (group.foldl feed accs.start) [(idField, id)])

/-! ## Reading -/

variable {m : Type → Type} [Reading m]

/-- Reads the accumulator of a field. -/
def readOne (field : String) : Json → m Accumulator
  | .object [(name, operand)] =>
    match AccumulatorOp.ofName? name with
    | none => Expr.fail (.unknownAccumulator name field)
    | some op => do return { op, input := ← Expr.read operand }
  | _ => Expr.fail (.accumulatorShape field)

/-- Reads the accumulators of the fields that are not reserved. -/
def read (reserved : List String) : List (String × Json) → m Accumulators
  | [] => pure []
  | (field, spec) :: rest =>
    if reserved.contains field then read reserved rest
    else if field.contains '.' || Segments.isOperator field then
      Expr.fail (.accumulatorField field)
    else do
      let acc ← readOne field spec
      let accs ← read reserved rest
      return (field, acc) :: accs

end Accumulators

end DocStore
