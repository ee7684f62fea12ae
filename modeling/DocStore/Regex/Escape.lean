import DocStore.Regex.Basic
import DocStore.Regex.Flags
import DocStore.Regex.NamedClass
import DocStore.Unicode.CaseFold

/-!
# Characters and escapes of regular expressions

The smallest parts of an expression and how they are read, with the flags in force where they stand.
Readers that loop take fuel, which the length of the text bounds: each step consumes a character.
-/

set_option autoImplicit false

namespace DocStore.Regex

/-- A reader of the front of an expression: what it read and the rest, or none if it is
malformed. -/
abbrev Reader (α : Type) := List Char → Option (α × List Char)

/-! ## Blanks -/

/-- Drops a comment up to the end of its line. -/
def dropComment : List Char → List Char
  | [] => []
  | '\n' :: cs => cs
  | _ :: cs => dropComment cs

theorem length_dropComment_le (cs : List Char) : (dropComment cs).length ≤ cs.length := by
  fun_induction dropComment cs with
  | case1 => simp
  | case2 => simp
  | case3 c cs _ ih => simp only [List.length_cons]; omega

/-- Drops blanks and comments. -/
def dropBlanks : List Char → List Char
  | [] => []
  | c :: cs =>
    if Unicode.isWhiteSpace c then dropBlanks cs
    else if c = '#' then dropBlanks (dropComment cs)
    else c :: cs
termination_by cs => cs.length
decreasing_by
  · simp
  · have := length_dropComment_le cs
    simp; omega

/-- Drops blanks and comments where they count for nothing. -/
def skip (flags : Flags) (cs : List Char) : List Char :=
  if flags.verbose then dropBlanks cs else cs

/-! ## Sets under flags -/

/-- A set with the other cases of its ASCII letters. -/
def closeAscii (s : CharSet) : CharSet :=
  s.union (.ofRanges ((List.range 26).flatMap fun i =>
    if s.holds (65 + i) || s.holds (97 + i) then [(65 + i, 65 + i), (97 + i, 97 + i)] else []))

/-- A set with the other cases of its members if case is ignored. -/
def folded (flags : Flags) (s : CharSet) : CharSet :=
  if !flags.ignoreCase then s
  else if flags.unicode then Unicode.CaseFold.close s
  else closeAscii s

/-- A set, or all other characters. Without Unicode the others are bytes, some of which are no
characters, so there is no such set. -/
def others? (flags : Flags) (negated : Bool) (s : CharSet) : Option CharSet :=
  if !negated then some s
  else if flags.unicode then some s.compl
  else none

/-! ## Primitives -/

/-- What an escape or a character of an expression stands for. -/
inductive Primitive where
  /-- A character; `byte` if it was written with two hexadecimal digits. -/
  | literal (c : Char) (byte : Bool)
  | set (s : CharSet)
  | place (a : Assertion)

/-- The expression of a primitive. Without Unicode only the plain form of a character that is not
ASCII is one. -/
def Primitive.toRegex? (flags : Flags) : Primitive → Option Regex
  | literal c byte =>
    if flags.unicode then
      some (if flags.ignoreCase then ofSet (Unicode.CaseFold.orbit c) else Regex.literal [c])
    else if 128 ≤ c.toNat ∧ (byte ∨ flags.ignoreCase) then none
    else some (ofSet (folded flags (.single c)))
  | set s => some (ofSet s)
  | place a => some (Regex.place a)

/-! ## Hexadecimal escapes -/

/-- The character of a code point, surrogates excluded. -/
def scalar? (n : Nat) : Option Char :=
  if n < 0xD800 ∨ (0xE000 ≤ n ∧ n < 0x110000) then some (Char.ofNat n) else none

/-- The value of a hexadecimal digit. -/
def hexDigit? (c : Char) : Option Nat :=
  if c.isDigit then some (c.toNat - 48)
  else if 'a' ≤ c ∧ c ≤ 'f' then some (c.toNat - 87)
  else if 'A' ≤ c ∧ c ≤ 'F' then some (c.toNat - 55)
  else none

/-- Reads so many hexadecimal digits. -/
def hexDigits? (flags : Flags) : Nat → Nat → Reader Nat
  | 0, n, cs => some (n, cs)
  | count + 1, n, cs =>
    match skip flags cs with
    | [] => none
    | c :: cs => (hexDigit? c).bind fun d => hexDigits? flags count (n * 16 + d) cs

/-- Reads hexadecimal digits up to a closing brace; there must be one at least. -/
def hexBraced? (flags : Flags) (fuel : Nat) (seen : Bool) (n : Nat) : Reader Nat := fun cs =>
  match fuel, skip flags cs with
  | fuel + 1, c :: cs =>
    if c = '\x7d' then (if seen then some (n, cs) else none)
    else (hexDigit? c).bind fun d => hexBraced? flags fuel true (n * 16 + d) cs
  | _, _ => none

/-- Reads the digits of a hexadecimal escape after its letter. -/
def hexEscape? (flags : Flags) (letter : Char) : Reader Primitive := fun cs =>
  match skip flags cs with
  | '\x7b' :: cs => do
    let (n, rest) ← hexBraced? flags (cs.length + 1) false 0 cs
    let c ← scalar? n
    return (.literal c false, rest)
  | cs => do
    let (n, rest) ←
      hexDigits? flags (if letter = 'x' then 2 else if letter = 'u' then 4 else 8) 0 cs
    let c ← scalar? n
    return (.literal c (letter == 'x'), rest)

/-! ## Properties -/

/-- Reads up to a closing brace and drops it. -/
def untilBrace? (flags : Flags) (fuel : Nat) (seen : List Char) : Reader (List Char) := fun cs =>
  match fuel, skip flags cs with
  | fuel + 1, c :: cs =>
    if c = '\x7d' then some (seen.reverse, cs) else untilBrace? flags fuel (c :: seen) cs
  | _, _ => none

/-- Reads a property after its letter. -/
def property? (flags : Flags) (negated : Bool) : Reader Primitive := fun cs =>
  if !flags.unicode then none
  else
    match skip flags cs with
    | [] => none
    | '\x7b' :: cs => do
      let (content, rest) ← untilBrace? flags (cs.length + 1) [] cs
      let (s, denied) ← bracedSet? content
      let s ← others? flags (negated != denied) (folded flags s)
      return (.set s, rest)
    | c :: cs =>
      if c = '\\' then none
      else do
        let s ← namedSet? [c]
        let s ← others? flags negated (folded flags s)
        return (.set s, cs)

/-! ## Boundaries -/

/-- The boundary that a name in braces stands for. -/
def namedBoundary? (ascii : Bool) (name : List Char) : Option Assertion :=
  match String.ofList name with
  | "start" => some (.wordStart ascii)
  | "end" => some (.wordEnd ascii)
  | "start-half" => some (.wordStartHalf ascii)
  | "end-half" => some (.wordEndHalf ascii)
  | _ => none

/-- Reads what follows the letter of a word boundary: a name in braces, or nothing. -/
def boundary? (flags : Flags) : Reader Primitive := fun cs =>
  let ascii := !flags.unicode
  match cs with
  | '\x7b' :: rest =>
    match skip flags rest with
    | [] => none
    | c :: rest =>
      if c.isAlpha ∨ c = '-' then do
        let (name, rest) ← untilBrace? flags (rest.length + 2) [] (c :: rest)
        let a ← namedBoundary? ascii name
        return (.place a, rest)
      else some (.place (.wordBoundary ascii), cs)
  | _ => some (.place (.wordBoundary ascii), cs)

/-! ## Escapes -/

/-- Whether a character that is no letter and no digit may be escaped. -/
def isEscapable (c : Char) : Bool := c.toNat < 128 && !c.isAlphanum && c != '<' && c != '>'

/-- Reads an escape after its backslash. -/
def escape? (flags : Flags) : Reader Primitive
  | [] => none
  | c :: cs =>
    let ascii := !flags.unicode
    match c with
    | 'x' | 'u' | 'U' => hexEscape? flags c cs
    | 'p' => property? flags false cs
    | 'P' => property? flags true cs
    | 'd' | 's' | 'w' => some (.set (letterClass flags.unicode c), cs)
    | 'D' | 'S' | 'W' =>
      (others? flags true (letterClass flags.unicode c.toLower)).map fun s => (.set s, cs)
    | 'a' => some (.literal '\x07' false, cs)
    | 'f' => some (.literal '\x0c' false, cs)
    | 't' => some (.literal '\t' false, cs)
    | 'n' => some (.literal '\n' false, cs)
    | 'r' => some (.literal '\r' false, cs)
    | 'v' => some (.literal '\x0b' false, cs)
    | 'A' => some (.place .textStart, cs)
    | 'z' => some (.place .textEnd, cs)
    | 'b' => boundary? flags cs
    | 'B' => some (.place (.notWordBoundary ascii), cs)
    | '<' => some (.place (.wordStart ascii), cs)
    | '>' => some (.place (.wordEnd ascii), cs)
    | _ => if isEscapable c then some (.literal c false, cs) else none

end DocStore.Regex
