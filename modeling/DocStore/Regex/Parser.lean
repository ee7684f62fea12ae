import DocStore.Regex.Bracket

/-!
# Reading regular expressions

An expression is read from left to right with the flags in force at each place. There are no
references back to groups and no assertions on what lies ahead or behind. The readers take fuel,
which `parse?` sets to the length of the text: each step consumes a character.
-/

set_option autoImplicit false

namespace DocStore.Regex

/-! ## Repetition -/

/-- Drops blanks, whatever the flags. -/
def dropWhite (cs : List Char) : List Char := cs.dropWhile Unicode.isWhiteSpace

/-- Reads the digits of a count. -/
def countDigits (flags : Flags) (fuel : Nat) (seen : List Char) (cs : List Char) :
    List Char × List Char :=
  match fuel, cs with
  | fuel + 1, c :: rest =>
    if c.isDigit then countDigits flags fuel (c :: seen) (skip flags rest) else (seen.reverse, cs)
  | _, _ => (seen.reverse, cs)

/-- Reads a count below 2^32, with blanks around it. -/
def count? (flags : Flags) : Reader Nat := fun cs =>
  let (digits, rest) := countDigits flags (cs.length + 1) [] (dropWhite cs)
  let n := digits.foldl (fun n c => n * 10 + (c.toNat - 48)) 0
  if digits = [] ∨ UInt32.size ≤ n then none else some (n, dropWhite rest)

/-- Reads the counts of a repetition after its opening brace. -/
def counts? (flags : Flags) : Reader (Nat × Option Nat) := fun cs => do
  let (least, cs) ← count? flags (skip flags cs)
  match cs with
  | '\x7d' :: rest => some ((least, some least), rest)
  | ',' :: rest =>
    match skip flags rest with
    | '\x7d' :: rest => some ((least, none), rest)
    | rest => do
      let (most, rest) ← count? flags rest
      match rest with
      | '\x7d' :: rest => if least ≤ most then some ((least, some most), rest) else none
      | _ => none
  | _ => none

/-- Drops the mark that makes a repetition lazy. -/
def dropLazy : List Char → List Char
  | '?' :: cs => cs
  | cs => cs

/-! ## Groups -/

/-- Whether a character may stand in the name of a group. -/
def isNameChar (first : Bool) (c : Char) : Bool :=
  c == '_' || Unicode.isAlphabetic c ||
    (!first && (c == '.' || c == '[' || c == ']' || Unicode.isNumeric c))

/-- Reads the name of a group up to its closing angle. -/
def groupName? (names : List String) : Reader String := fun cs =>
  let name := cs.takeWhile (· != '>')
  match name, cs.dropWhile (· != '>') with
  | first :: others, '>' :: rest =>
    let text := String.ofList name
    if isNameChar true first ∧ others.all (isNameChar false) ∧ ¬ names.contains text then
      some (text, rest)
    else none
  | _, _ => none

/-- What an opening parenthesis starts. -/
inductive Opening where
  /-- A group, with the flags inside it, its name, and whether it remembers what it matched. -/
  | group (flags : Flags) (name : Option String) (captures : Bool)
  /-- Flags for the rest of the group around it. -/
  | directive (flags : Flags)

/-- Reads the start of a group after its parenthesis. -/
def opening? (flags : Flags) (names : List String) : Reader Opening := fun cs =>
  match skip flags cs with
  | '?' :: 'P' :: '<' :: rest =>
    (groupName? names rest).map fun p => (.group flags (some p.1) true, p.2)
  | '?' :: '<' :: '=' :: _ => none
  | '?' :: '<' :: '!' :: _ => none
  | '?' :: '=' :: _ => none
  | '?' :: '!' :: _ => none
  | '?' :: '<' :: rest =>
    (groupName? names rest).map fun p => (.group flags (some p.1) true, p.2)
  | '?' :: ')' :: _ => none
  | '?' :: rest =>
    match flags.read? [] rest with
    | some (inner, ':' :: rest) => some (.group inner none false, rest)
    | some (inner, _ :: rest) => some (.directive inner, rest)
    | _ => none
  | rest => some (.group flags none true, rest)

/-! ## Expressions -/

/-- An expression with the depth to which its parts are nested: groups, repetitions, classes, and
sequences and choices of two parts at least count one level each. -/
structure Parsed where
  regex : Regex
  depth : Nat

/-- An expression without levels of its own. -/
def Parsed.flat (r : Regex) : Parsed := { regex := r, depth := 0 }

/-- A part of a sequence; a directive is none that could be repeated. -/
inductive Part where
  | expr (p : Parsed)
  | directive

/-- The depth of a list of parts, which counts as a level if there are two at least. -/
def levels (depths : List Nat) : Nat :=
  depths.foldl max 0 + (if depths.length ≤ 1 then 0 else 1)

/-- The sequence of parts that are held in reverse. -/
def sequence (parts : List Part) : Parsed :=
  { regex := concat (parts.reverse.filterMap fun
      | .expr p => some p.regex
      | .directive => none)
    depth := levels (parts.map fun
      | .expr p => p.depth
      | .directive => 0) }

/-- The choice between expressions that are held in reverse. -/
def choiceOf (parts : List Parsed) : Parsed :=
  { regex := choice (parts.reverse.map (·.regex)), depth := levels (parts.map (·.depth)) }

/-- The parts with the last one repeated. -/
def repeatLast? (least : Nat) (most : Option Nat) : List Part → Option (List Part)
  | .expr p :: earlier =>
    some (.expr { regex := times p.regex least most, depth := p.depth + 1 } :: earlier)
  | _ => none

/-- The characters that the dot stands for. -/
def dotSet (flags : Flags) : CharSet :=
  if flags.dotAll then .range 0 CharSet.top
  else if flags.crlf then (CharSet.ofChars "\r\n").compl
  else (CharSet.single '\n').compl

/-- Reads an expression up to the end of the text or the parenthesis that closes the group around
it. `earlier` holds the finished alternatives and `parts` the parts of the current one, both in
reverse; the names of groups are collected. -/
def body? : Nat → Flags → List String → List Parsed → List Part → Reader (Parsed × List String)
  | 0, _, _, _, _, _ => none
  | fuel + 1, flags, names, earlier, parts, cs =>
    let place (a : Assertion) : Part := .expr (.flat (Regex.place a))
    match skip flags cs with
    | [] => some ((choiceOf (sequence parts :: earlier), names), [])
    | ')' :: rest => some ((choiceOf (sequence parts :: earlier), names), ')' :: rest)
    | '|' :: rest => body? fuel flags names (sequence parts :: earlier) [] rest
    | '(' :: rest =>
      match opening? flags names rest with
      | none => none
      | some (.directive inner, rest) =>
        body? fuel inner names earlier (.directive :: parts) rest
      | some (.group inner name captures, rest) =>
        match body? fuel inner (name.toList ++ names) [] [] rest with
        | some ((p, names), ')' :: rest) =>
          let r := if captures then Regex.group p.regex else p.regex
          body? fuel flags names earlier (.expr { regex := r, depth := p.depth + 1 } :: parts) rest
        | _ => none
    | '[' :: rest => do
      let (c, rest) ← class? flags rest
      body? fuel flags names earlier
        (.expr { regex := ofSet c.set, depth := c.depth } :: parts) rest
    | '?' :: rest => do
      body? fuel flags names earlier (← repeatLast? 0 (some 1) parts) (dropLazy rest)
    | '*' :: rest => do
      body? fuel flags names earlier (← repeatLast? 0 none parts) (dropLazy rest)
    | '+' :: rest => do
      body? fuel flags names earlier (← repeatLast? 1 none parts) (dropLazy rest)
    | '\x7b' :: rest => do
      let ((least, most), rest) ← counts? flags rest
      body? fuel flags names earlier (← repeatLast? least most parts) (dropLazy (skip flags rest))
    | '\\' :: rest => do
      let (p, rest) ← escape? flags rest
      body? fuel flags names earlier (.expr (.flat (← p.toRegex? flags)) :: parts) rest
    | '.' :: rest =>
      if !flags.unicode then none
      else body? fuel flags names earlier (.expr (.flat (ofSet (dotSet flags))) :: parts) rest
    | '^' :: rest =>
      let a : Assertion := if flags.multiLine then .lineStart flags.crlf else .textStart
      body? fuel flags names earlier (place a :: parts) rest
    | '$' :: rest =>
      let a : Assertion := if flags.multiLine then .lineEnd flags.crlf else .textEnd
      body? fuel flags names earlier (place a :: parts) rest
    | c :: rest => do
      let r ← (Primitive.literal c false).toRegex? flags
      body? fuel flags names earlier (.expr (.flat r) :: parts) rest

/-- The greatest depth to which the parts of an expression may be nested. -/
def maxDepth : Nat := 250

/-- Reads a regular expression, or none if it is malformed. -/
def parse? (text : String) : Option Regex :=
  let cs := text.toList
  match body? (cs.length + 1) {} [] [] [] cs with
  | some ((p, _), []) => if p.depth ≤ maxDepth then some p.regex else none
  | _ => none

end DocStore.Regex
