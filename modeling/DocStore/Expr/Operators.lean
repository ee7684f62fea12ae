import DocStore.Calendar.Shift
import DocStore.Expr.Basic
import DocStore.Value.Arithmetic

/-!
# Operators on values

What the operators of expressions do once their operands are known. Null operands give null; other
operands that an operator cannot take are wrong kinds, and results that cannot be represented are
arithmetic errors.
-/

set_option autoImplicit false

namespace DocStore.Operators

/-! ## Numbers -/

/-- Refuses an operand that is neither a number nor null. -/
def checkNumeric (operator : String) (v : Value) : Result Unit :=
  if v.isNumber || v.isNull then .ok () else .error (.type (.operand operator v.kind))

/-- Combines numbers from left to right; null if one of them is null. -/
def fold (op : Arithmetic) (values : List Value) : Result Value := do
  values.forM (checkNumeric op.name)
  if values.any Value.isNull then return .null
  return values.foldl op.apply op.unit

/-- The quotient of two numbers, as a double. -/
def quotient (a b : Value) : Result Value := do
  checkNumeric "$divide" a
  checkNumeric "$divide" b
  match a.float?, b.float? with
  | some n, some d =>
    if Binary64.equal d 0 then .error (.arithmetic .divisionByZero) else return .float (n / d)
  | _, _ => return .null

/-! ## Dates -/

/-- The date that lies so many milliseconds after an instant. -/
def shift (t : Instant) (ms : Int) : Result Value :=
  match t.addMillis? ms with
  | some t => .ok (.date t)
  | none => .error (.arithmetic .dateRange)

/-- A double as whole milliseconds, a half being rounded away from zero. -/
def wholeMillis (f : Float) : Result Int64 :=
  match if Binary64.isFinite f then Checked.ofInt? (Binary64.roundHalfAway f) else none with
  | some n => .ok n
  | none => .error (.arithmetic .dateRange)

/-- What an operand adds to a date, in milliseconds; nothing for null. -/
def offset : Value → Result (Option Int64)
  | .null => .ok none
  | .int n => .ok (some n)
  | .float f => (wholeMillis f).map some
  | other => .error (.type (.dateOffset other.kind))

/-- The sum of offsets in milliseconds, or none if one of them is null. -/
def totalOffset (total : Int64) : List Value → Result (Option Int64)
  | [] => .ok (some total)
  | v :: rest => do
    match ← offset v with
    | none => return none
    | some n =>
      match Checked.add? total n with
      | some total => totalOffset total rest
      | none => .error (.arithmetic .dateRange)

/-- Takes the first date out of a list of values. -/
def takeDate? : List Value → Option (Instant × List Value)
  | [] => none
  | .date t :: rest => some (t, rest)
  | v :: rest => (takeDate? rest).map fun (t, others) => (t, v :: others)

/-- The sum of numbers, or of a date and numbers of milliseconds. -/
def sum (values : List Value) : Result Value :=
  match takeDate? values with
  | none => fold .add values
  | some (t, others) => do
    match ← totalOffset 0 others with
    | none => return .null
    | some ms => shift t ms.toInt

/-- The difference of two numbers, of two dates in milliseconds, or of a date and a number of
milliseconds. -/
def difference : Value → Value → Result Value
  | .date a, .date b => .ok (.int (Int64.ofInt (a.millisSince b)))
  | .date t, .int ms => shift t (-ms.toInt)
  | .date t, .float ms => do shift t (-(← wholeMillis ms).toInt)
  | .date _, .null => .ok .null
  | a, b => do
    checkNumeric "$subtract" a
    checkNumeric "$subtract" b
    if a.isNull || b.isNull then return .null
    return Arithmetic.subtract.apply a b

/-! ## Arrays -/

/-- The first items of a list, or the last ones for a negative count. -/
def takeItems {α : Type} (items : List α) (count : Int) : List α :=
  if 0 ≤ count then items.take count.toNat else items.drop (items.length + count).toNat

/-- So many items of a list from a position on, which counts from the end if it is negative. -/
def sliceItems {α : Type} (items : List α) (position count : Int) : List α :=
  let start := if position < 0 then items.length + position else position
  (items.drop start.toNat).take count.toNat

/-- An argument that must be integral; a double beyond the integers stands for the last of them. -/
def integral (name : String) (v : Value) : Result Int64 :=
  match v with
  | .int n => .ok n
  | .float f =>
    if Binary64.isIntegral f then .ok (Binary64.saturate f)
    else .error (.type (.sliceArgument name v))
  | _ => .error (.type (.sliceArgument name v))

/-- Refuses what is no array. -/
def items (v : Value) : Result (List Value) :=
  match v with
  | .array items => .ok items
  | other => .error (.type (.sliceArray other.kind))

/-- The first or last items of an array. -/
def take (array count : Value) : Result Value := do
  if array.isNull then return .null
  let items ← items array
  let count ← integral "count" count
  return .array (takeItems items count.toInt)

/-- Items of an array from a position on. -/
def slice (array position count : Value) : Result Value := do
  if array.isNull then return .null
  let items ← items array
  let count ← integral "count" count
  let position ← integral "position" position
  if count.toInt ≤ 0 then .error (.type (.sliceCount count))
  else return .array (sliceItems items position.toInt count.toInt)

/-! ## Texts -/

/-- Whether a text matches a pattern. -/
def isMatch (p : Pattern) : Value → Result Value
  | .null => .ok (.bool false)
  | .string text => .ok (.bool (p.isMatch text))
  | other => .error (.type (.matchInput other.kind))

/-- The text of a date. -/
def dateText (format : DateFormat) : Value → Result Value
  | .null => .ok .null
  | .date t => .ok (.string (format.render t))
  | other => .error (.type (.dateInput other.kind))

end DocStore.Operators
