import DocStore.Calendar.Instant

/-!
# Date texts

The Internet date format: `2025-03-01T10:00:00.000Z`. Reading accepts any offset and any number of
digits of a second, of which nine count; writing uses UTC and three digits.
-/

set_option autoImplicit false

namespace DocStore.Rfc3339

/-! ## Reading -/

/-- A reader of the front of a text, which gives what it read and the rest. -/
abbrev Reader (α : Type) := List Char → Option (α × List Char)

/-- A number of exactly so many decimal digits. -/
def number (width : Nat) : Reader Nat := fun cs =>
  let front := cs.take width
  if front.length = width ∧ front.all Char.isDigit then
    some (front.foldl (fun n c => n * 10 + (c.toNat - 48)) 0, cs.drop width)
  else none

/-- One of the given characters. -/
def oneOf (allowed : List Char) : Reader Char
  | c :: cs => if c ∈ allowed then some (c, cs) else none
  | [] => none

/-- The nanoseconds that an optional fraction of a second stands for. -/
def fraction : Reader Nat
  | '.' :: cs =>
    let digits := cs.takeWhile Char.isDigit
    if digits = [] then none
    else
      let front := digits.take 9
      let n := front.foldl (fun n c => n * 10 + (c.toNat - 48)) 0
      some (n * Nat.pow 10 (9 - front.length), cs.dropWhile Char.isDigit)
  | cs => some (0, cs)

/-- The offset from UTC in seconds. -/
def offset : Reader Int
  | 'Z' :: cs => some (0, cs)
  | 'z' :: cs => some (0, cs)
  | cs => do
    let (sign, cs) ← oneOf ['+', '-', '\u2212'] cs
    let (hours, cs) ← number 2 cs
    let (_, cs) ← oneOf [':'] cs
    let (minutes, cs) ← number 2 cs
    let seconds : Int := hours * 3600 + minutes * 60
    if minutes < 60 ∧ seconds < 86400 then
      some (if sign = '+' then seconds else -seconds, cs)
    else none

/-- The instant of a date, a time of day that may name a leap second, and an offset. -/
def instant? (date : CivilDate) (hour minute second nanos : Nat) (offset : Int) : Option Instant :=
  if hour < 24 ∧ minute < 60 ∧ second ≤ 60 then
    let leap := second = 60
    let clock : Int := hour * 3600 + minute * 60 + (if leap then 59 else second : Nat)
    Instant.checked?
      { seconds := date.toDays * Instant.daySeconds + clock - offset
        nanos := if leap then Instant.second + nanos else nanos }
  else none

/-- Reads a date text, or none if the text is none or names no instant. -/
def parse? (text : String) : Option Instant := do
  let (year, cs) ← number 4 text.toList
  let (_, cs) ← oneOf ['-'] cs
  let (month, cs) ← number 2 cs
  let (_, cs) ← oneOf ['-'] cs
  let (day, cs) ← number 2 cs
  let (_, cs) ← oneOf ['T', 't', ' '] cs
  let (hour, cs) ← number 2 cs
  let (_, cs) ← oneOf [':'] cs
  let (minute, cs) ← number 2 cs
  let (_, cs) ← oneOf [':'] cs
  let (second, cs) ← number 2 cs
  let (nanos, cs) ← fraction cs
  let (offset, cs) ← offset cs
  guard cs.isEmpty
  let date ← CivilDate.ofNumbers? year month day
  instant? date hour minute second nanos offset

/-! ## Writing -/

/-- A number with zeros in front of it up to a width. -/
def padded (width n : Nat) : String :=
  let digits := Nat.toDigits 10 n
  String.ofList (List.replicate (width - digits.length) '0' ++ digits)

/-- A year: four digits from 0 to 9999, beyond that a sign and at least four digits. -/
def yearText (year : Int) : String :=
  if 0 ≤ year ∧ year ≤ 9999 then padded 4 year.toNat
  else (if year < 0 then "-" else "+") ++ padded 4 year.natAbs

/-- The text of an instant in UTC, cut to milliseconds. A leap second is written as second 60. -/
def text (t : Instant) : String :=
  let d := t.date
  let second := if t.isLeap then t.secondOfMinute + 1 else t.secondOfMinute
  let nanos := if t.isLeap then t.nanos - Instant.second else t.nanos
  yearText d.year ++ "-" ++ padded 2 d.month ++ "-" ++ padded 2 d.day ++ "T" ++
    padded 2 t.hour ++ ":" ++ padded 2 t.minute ++ ":" ++ padded 2 second ++ "." ++
    padded 3 (nanos / 1000000) ++ "Z"

end DocStore.Rfc3339
