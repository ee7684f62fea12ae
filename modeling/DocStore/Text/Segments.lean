/-!
# Segments of a path

A path is a text whose segments are separated by dots. A segment that is a decimal number also
addresses an item of an array.
-/

set_option autoImplicit false

namespace DocStore.Segments

/-- The pieces of a text between its dots; there is always one at least. -/
def split : List Char → List (List Char)
  | [] => [[]]
  | c :: cs =>
    if c = '.' then [] :: split cs
    else
      match split cs with
      | [] => [[c]]
      | piece :: rest => (c :: piece) :: rest

/-- The segments of a path. -/
def ofPath (path : String) : List String := (split path.toList).map String.ofList

/-- The text before the first dot of a path and the text behind it, if there is a dot. -/
def cut? (path : String) : Option (String × String) :=
  match path.toList.dropWhile (· != '.') with
  | [] => none
  | _ :: rest => some (String.ofList (path.toList.takeWhile (· != '.')), String.ofList rest)

/-- Whether all segments of a path are non-empty. -/
def isPath (path : String) : Bool := (ofPath path).all fun s => !s.isEmpty

/-- The first segment of a path. -/
def top (path : String) : String := (ofPath path).headD ""

/-- The index that a segment names: a decimal number below 2^64, which may bear a plus sign. -/
def index? (segment : String) : Option Nat :=
  let digits := match segment.toList with
    | '+' :: ds => ds
    | ds => ds
  if digits ≠ [] ∧ digits.all Char.isDigit then
    let n := digits.foldl (fun n c => n * 10 + (c.toNat - 48)) 0
    if n < UInt64.size then some n else none
  else none

/-- Whether a name is written like an operator, with a dollar sign in front. -/
def isOperator (name : String) : Bool := name.toList.head? == some '$'

theorem split_ne_nil (cs : List Char) : split cs ≠ [] := by
  cases cs with
  | nil => simp [split]
  | cons c cs =>
      simp only [split]
      split
      · simp
      · split <;> simp

theorem ofPath_ne_nil (path : String) : ofPath path ≠ [] := by
  simp [ofPath, split_ne_nil]

end DocStore.Segments
