import DocStore.Number.Checked
import DocStore.Value.Basic

/-!
# Arithmetic on values

Sums, differences and products of numbers. Two integers give an integer as long as the exact result
is one; every other result is a double.
-/

set_option autoImplicit false

namespace DocStore

/-- An operation on two numbers. -/
inductive Arithmetic where
  | add
  | subtract
  | multiply
deriving DecidableEq, Repr

namespace Arithmetic

/-- The name of the operation in expressions. -/
def name : Arithmetic → String
  | add => "$add"
  | subtract => "$subtract"
  | multiply => "$multiply"

/-- The number that an empty list of operands gives. -/
def unit : Arithmetic → Value
  | multiply => .int 1
  | _ => .int 0

/-- The result on integers, if it fits. -/
def onInts? : Arithmetic → Int64 → Int64 → Option Int64
  | add => Checked.add?
  | subtract => Checked.sub?
  | multiply => Checked.mul?

/-- The result on doubles. -/
def onFloats : Arithmetic → Float → Float → Float
  | add, a, b => a + b
  | subtract, a, b => a - b
  | multiply, a, b => a * b

/-- The result on doubles nearest to two numbers. -/
def rounded (op : Arithmetic) (a b : Value) : Value :=
  .float (op.onFloats (a.float?.getD 0) (b.float?.getD 0))

/-- The result on two numbers. -/
def apply (op : Arithmetic) : Value → Value → Value
  | .int a, .int b =>
    match op.onInts? a b with
    | some n => .int n
    | none => rounded op (.int a) (.int b)
  | a, b => rounded op a b

end Arithmetic

end DocStore
