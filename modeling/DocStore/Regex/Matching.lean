import DocStore.Regex.Basic
import DocStore.Unicode.Property

/-!
# Matching

The meaning of an expression on a text is the set of places that a match which starts in a given set
of places can end in. Sets of places are bit masks, place `i` being bit `i`. Only whether a text
holds a match is asked for, so greedy and lazy repetition mean the same, and a group means what
stands in it.
-/

set_option autoImplicit false

namespace DocStore

/-! ## Places -/

/-- Whether a character belongs to a word. -/
def Regex.isWordChar (ascii : Bool) (c : Char) : Bool :=
  if ascii then c.isAlphanum || c == '_' else Unicode.word.contains c

/-- Whether an assertion holds between two neighbouring characters. -/
def Assertion.holds (a : Assertion) (before after : Option Char) : Bool :=
  let word (ascii : Bool) (c : Option Char) : Bool := (c.map (Regex.isWordChar ascii)).getD false
  match a with
  | textStart => before.isNone
  | textEnd => after.isNone
  | lineStart crlf =>
    match before with
    | none => true
    | some '\n' => true
    | some '\r' => crlf && after != some '\n'
    | some _ => false
  | lineEnd crlf =>
    match after with
    | none => true
    | some '\r' => crlf
    | some '\n' => !crlf || before != some '\r'
    | some _ => false
  | wordBoundary ascii => word ascii before != word ascii after
  | notWordBoundary ascii => word ascii before == word ascii after
  | wordStart ascii => !word ascii before && word ascii after
  | wordEnd ascii => word ascii before && !word ascii after
  | wordStartHalf ascii => !word ascii before
  | wordEndHalf ascii => !word ascii after

namespace Regex

/-- The bit mask of the positions at which a list holds true. -/
def bits : List Bool → Nat
  | [] => 0
  | b :: rest => 2 * bits rest + (if b then 1 else 0)

/-- The neighbours of each place of a text, from its start to its end. -/
def neighbours (before : Option Char) : List Char → List (Option Char × Option Char)
  | [] => [(before, none)]
  | c :: cs => (before, some c) :: neighbours (some c) cs

/-! ## Plans -/

/-- What an expression does on a given text. -/
inductive Plan where
  /-- It steps over the characters at the marked places. -/
  | step (places : Nat)
  /-- It stays at the marked places. -/
  | stay (places : Nat)
  | seq (ps : List Plan)
  | alt (ps : List Plan)
  | repeated (p : Plan) (least : Nat) (most : Option Nat)

mutual

/-- What an expression does on a text. -/
def plan (text : List Char) : Regex → Plan
  | literal cs => .seq (cs.map fun c => .step (bits (text.map (· == c))))
  | set s => .step (bits (text.map s.contains))
  | place a => .stay (bits ((neighbours none text).map fun p => a.holds p.1 p.2))
  | repeated r least most => .repeated (plan text r) least most
  | group r => plan text r
  | seq rs => .seq (planAll text rs)
  | alt rs => .alt (planAll text rs)

/-- What some expressions do on a text. -/
def planAll (text : List Char) : List Regex → List Plan
  | [] => []
  | r :: rs => plan text r :: planAll text rs

end

/-! ## Steps -/

/-- The places reached by exactly `n` steps; a step that changes nothing ends the count. -/
def exactly (step : Nat → Nat) : Nat → Nat → Nat
  | 0, places => places
  | n + 1, places =>
    let next := step places
    if next = places then places else exactly step n next

/-- The places reached by up to `n` steps; a step that reaches no further place ends the count. -/
def upTo (step : Nat → Nat) : Nat → Nat → Nat
  | 0, places => places
  | n + 1, places =>
    let next := places ||| step places
    if next = places then places else upTo step n next

mutual

/-- The places where a match ends that starts in one of the given places of a text of `length`
characters. -/
def ends (length : Nat) : Plan → Nat → Nat
  | .step marked, places => (places &&& marked) <<< 1
  | .stay marked, places => places &&& marked
  | .seq ps, places => endsSeq length ps places
  | .alt ps, places => endsAlt length ps places
  | .repeated p least most, places =>
    upTo (ends length p) (most.elim (length + 1) (· - least)) (exactly (ends length p) least places)

/-- The places where matches of all plans, one after the other, end. -/
def endsSeq (length : Nat) : List Plan → Nat → Nat
  | [], places => places
  | p :: ps, places => endsSeq length ps (ends length p places)

/-- The places where a match of any of the plans ends. -/
def endsAlt (length : Nat) : List Plan → Nat → Nat
  | [], _ => 0
  | p :: ps, places => ends length p places ||| endsAlt length ps places

end

/-- Whether a text holds a match. -/
def isMatch (r : Regex) (text : String) : Bool :=
  let cs := text.toList
  ends cs.length (plan cs r) ((1 <<< (cs.length + 1)) - 1) != 0

end Regex

end DocStore
