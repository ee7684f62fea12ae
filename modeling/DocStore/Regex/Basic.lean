import DocStore.Unicode.CharSet

/-!
# Regular expressions

A regular expression over characters and places of a text. Expressions are built by functions that
bring them into a simple form: sequences and choices are flat and have two parts at least,
neighbouring texts are joined, and a choice between single characters, or between sets, is a set.
-/

set_option autoImplicit false

namespace DocStore

/-- A place that an expression may look at. -/
inductive Assertion where
  | textStart
  | textEnd
  /-- After a line feed, or at the start; with carriage returns counted too if `crlf`. -/
  | lineStart (crlf : Bool)
  | lineEnd (crlf : Bool)
  /-- Between a character of a word and none; by ASCII only if `ascii`. -/
  | wordBoundary (ascii : Bool)
  | notWordBoundary (ascii : Bool)
  | wordStart (ascii : Bool)
  | wordEnd (ascii : Bool)
  | wordStartHalf (ascii : Bool)
  | wordEndHalf (ascii : Bool)
deriving DecidableEq

/-- A regular expression. -/
inductive Regex where
  /-- The characters of a text one after the other. -/
  | literal (text : List Char)
  /-- One character of a set. -/
  | set (s : CharSet)
  | place (a : Assertion)
  /-- At least so many repetitions and at most so many. -/
  | repeated (r : Regex) (least : Nat) (most : Option Nat)
  /-- A group that remembers what it matched. -/
  | group (r : Regex)
  /-- One expression after the other. -/
  | seq (rs : List Regex)
  /-- One expression or the other. -/
  | alt (rs : List Regex)

namespace Regex

/-! ## Equality -/

mutual

/-- Whether two expressions are the same. Groups are told apart by their place, so no group is the
same as another. -/
def same : Regex → Regex → Bool
  | literal t, literal u => t == u
  | set s, set t => s == t
  | place a, place b => a == b
  | repeated r least most, repeated r' least' most' =>
    same r r' && least == least' && most == most'
  | seq rs, seq rs' => sameAll rs rs'
  | alt rs, alt rs' => sameAll rs rs'
  | _, _ => false

/-- Whether two lists of expressions are the same. -/
def sameAll : List Regex → List Regex → Bool
  | [], [] => true
  | r :: rs, r' :: rs' => same r r' && sameAll rs rs'
  | _, _ => false

end

/-! ## Lengths of matches -/

mutual

/-- The least length of a match; none if nothing matches. -/
def minLength : Regex → Option Nat
  | literal t => some t.length
  | set s => if s.isEmpty then none else some 1
  | place _ => some 0
  | repeated r least _ => (minLength r).map (· * least)
  | group r => minLength r
  | seq rs => minLengthSeq rs
  | alt rs => minLengthAlt rs

/-- The least length of matches one after the other. -/
def minLengthSeq : List Regex → Option Nat
  | [] => some 0
  | r :: rs => do return (← minLength r) + (← minLengthSeq rs)

/-- The least length of a match of one of some expressions that can all match. -/
def minLengthAlt : List Regex → Option Nat
  | [] => none
  | [r] => minLength r
  | r :: rs => do return min (← minLength r) (← minLengthAlt rs)

end

mutual

/-- The greatest length of a match; none if there is no bound. -/
def maxLength : Regex → Option Nat
  | literal t => some t.length
  | set s => if s.isEmpty then none else some 1
  | place _ => some 0
  | repeated r _ most => do return (← maxLength r) * (← most)
  | group r => maxLength r
  | seq rs => maxLengthSeq rs
  | alt rs => maxLengthAlt rs

/-- The greatest length of matches one after the other. -/
def maxLengthSeq : List Regex → Option Nat
  | [] => some 0
  | r :: rs => do return (← maxLength r) + (← maxLengthSeq rs)

/-- The greatest length of a match of one of some expressions. -/
def maxLengthAlt : List Regex → Option Nat
  | [] => none
  | [r] => maxLength r
  | r :: rs => do return max (← maxLength r) (← maxLengthAlt rs)

end

/-! ## Anchors -/

/-- Where a text can be anchored. -/
inductive Side where
  | front
  | back

mutual

/-- Whether every match begins at the start of the text, or ends at its end, by an assertion that
stands there. -/
def anchored (side : Side) : Regex → Bool
  | place .textStart => match side with
    | .front => true
    | .back => false
  | place .textEnd => match side with
    | .front => false
    | .back => true
  | repeated r least _ => decide (0 < least) && anchored side r
  | group r => anchored side r
  | seq rs => match side with
    | .front => anchoredFront rs
    | .back => anchoredBack rs
  | alt rs => anchoredAll side rs
  | _ => false

/-- Whether a sequence has such an assertion before anything that takes up room. -/
def anchoredFront : List Regex → Bool
  | [] => false
  | r :: rs => anchored .front r || (maxLength r == some 0 && anchoredFront rs)

/-- Whether a sequence has such an assertion after all that takes up room. -/
def anchoredBack : List Regex → Bool
  | [] => false
  | r :: rs => anchoredBack rs || (maxLengthSeq rs == some 0 && anchored .back r)

/-- Whether all expressions of a choice are anchored. -/
def anchoredAll (side : Side) : List Regex → Bool
  | [] => true
  | r :: rs => anchored side r && anchoredAll side rs

end

/-! ## Building -/

/-- The expression of a set: a text if it has one member. -/
def ofSet (s : CharSet) : Regex :=
  match s.only? with
  | some c => literal [c]
  | none => set s

/-- A repetition. What matches only the empty text need not be tried twice. -/
def times (r : Regex) (least : Nat) (most : Option Nat) : Regex :=
  let (least, most) :=
    if maxLength r = some 0 then (min least 1, some (min (most.getD 1) 1)) else (least, most)
  if most = some 0 then literal []
  else if least = 1 ∧ most = some 1 then r
  else repeated r least most

/-- The parts of a sequence with empty texts dropped and neighbouring texts joined. -/
def joinTexts : List Regex → List Regex
  | [] => []
  | literal t :: rs =>
    match t, joinTexts rs with
    | [], rs => rs
    | t, literal u :: rs => literal (t ++ u) :: rs
    | t, rs => literal t :: rs
  | r :: rs => r :: joinTexts rs

/-- One expression after the other. -/
def concat (rs : List Regex) : Regex :=
  let flat := rs.flatMap fun
    | seq inner => inner
    | r => [r]
  match joinTexts flat with
  | [] => literal []
  | [r] => r
  | rs => seq rs

/-- The set of a choice between texts of one character each, or between sets. -/
def unionOf? (rs : List Regex) : Option CharSet :=
  let singles := rs.mapM fun
    | literal [c] => some (CharSet.single c)
    | _ => none
  let sets := rs.mapM fun
    | set s => some s
    | _ => none
  (singles <|> sets).map CharSet.unions

/-- The parts of a sequence. -/
def parts? : Regex → Option (List Regex)
  | seq rs => some rs
  | _ => none

/-- The number of parts that two sequences begin with in common. -/
def commonLength : List Regex → List Regex → Nat
  | r :: rs, r' :: rs' => if same r r' then commonLength rs rs' + 1 else 0
  | _, _ => 0

/-- The number of parts that all of some sequences begin with. -/
def sharedLength : List (List Regex) → Nat
  | [] => 0
  | first :: rest => rest.foldl (fun n rs => min n (commonLength first rs)) first.length

/-- One expression or the other. What all begin with is taken in front; `fuel` bounds how often. -/
def choiceFrom (fuel : Nat) (rs : List Regex) : Regex :=
  let flat := rs.flatMap fun
    | alt inner => inner
    | r => [r]
  match flat with
  | [] => set .empty
  | [r] => r
  | rs =>
    match unionOf? rs with
    | some s => ofSet s
    | none =>
      match fuel, rs.mapM parts? with
      | fuel + 1, some (first :: others) =>
        let n := sharedLength (first :: others)
        if n = 0 then alt rs
        else
          concat (first.take n ++
            [choiceFrom fuel ((first :: others).map fun rs => concat (rs.drop n))])
      | _, _ => alt rs

/-- One expression or the other. Nested choices are never deeper than nested groups, which bounds
how often something can be taken in front. -/
def choice (rs : List Regex) : Regex := choiceFrom 256 rs

end Regex

end DocStore
