import DocStore.Calendar.Rfc3339
import DocStore.Error.Basic

/-!
# Date formats

A format is literal text with tokens: a percent sign and a letter that names a field of a date. A
doubled percent sign stands for one. Neighbouring literal characters make one part.
-/

set_option autoImplicit false

namespace DocStore

/-- A field of a date that a format can show. -/
inductive DateField where
  | year
  | month
  | day
  | hour
  | minute
  | second
  | millisecond
  | dayOfYear
deriving DecidableEq, Repr

namespace DateField

/-- The letter of a field. -/
def letter : DateField → Char
  | year => 'Y'
  | month => 'm'
  | day => 'd'
  | hour => 'H'
  | minute => 'M'
  | second => 'S'
  | millisecond => 'L'
  | dayOfYear => 'j'

/-- The field of a letter. -/
def ofLetter? : Char → Option DateField
  | 'Y' => some year
  | 'm' => some month
  | 'd' => some day
  | 'H' => some hour
  | 'M' => some minute
  | 'S' => some second
  | 'L' => some millisecond
  | 'j' => some dayOfYear
  | _ => none

theorem ofLetter?_letter (f : DateField) : ofLetter? f.letter = some f := by
  cases f <;> rfl

/-- A year in four characters at least, the sign being one of them. -/
def yearText (year : Int) : String :=
  if year < 0 then "-" ++ Rfc3339.padded 3 year.natAbs else Rfc3339.padded 4 year.toNat

/-- A field as it is shown. A leap second shows as the one before it, with a thousand milliseconds
and more. -/
def text (t : Instant) : DateField → String
  | year => yearText t.date.year
  | month => Rfc3339.padded 2 t.date.month
  | day => Rfc3339.padded 2 t.date.day
  | hour => Rfc3339.padded 2 t.hour
  | minute => Rfc3339.padded 2 t.minute
  | second => Rfc3339.padded 2 t.secondOfMinute
  | millisecond => Rfc3339.padded 3 (t.nanos / 1000000)
  | dayOfYear => Rfc3339.padded 3 t.date.dayOfYear

end DateField

/-- A part of a format. -/
inductive DateFormat.Part where
  | literal (text : String)
  | field (f : DateField)

/-- A format of dates. -/
abbrev DateFormat := List DateFormat.Part

namespace DateFormat

/-- Puts a literal character in front of a format. -/
def pushLiteral (c : Char) : DateFormat → DateFormat
  | .literal text :: rest => .literal (c.toString ++ text) :: rest
  | parts => .literal c.toString :: parts

/-- Reads a format from its characters. -/
def ofChars : List Char → Except ExprFault DateFormat
  | [] => .ok []
  | ['%'] => .error .formatEnd
  | '%' :: '%' :: rest => (ofChars rest).map (pushLiteral '%')
  | '%' :: c :: rest =>
    match DateField.ofLetter? c with
    | none => .error (.formatToken c)
    | some f => (ofChars rest).map (.field f :: ·)
  | c :: rest => (ofChars rest).map (pushLiteral c)

/-- Reads a format. -/
def parse (text : String) : Except ExprFault DateFormat := ofChars text.toList

/-- The format of dates where none is given: milliseconds, in UTC. -/
def standard : String := "%Y-%m-%dT%H:%M:%S.%LZ"

/-- A part of the text of an instant. -/
def Part.render (t : Instant) : Part → String
  | .literal text => text
  | .field f => f.text t

/-- The text of an instant. -/
def render (format : DateFormat) (t : Instant) : String :=
  String.join (format.map (Part.render t))

end DateFormat

end DocStore
