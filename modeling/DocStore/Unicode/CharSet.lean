/-!
# Sets of characters

A set of characters is held as ranges of code points, so that it can be counted, complemented and
compared as well as asked. Tables of character properties are written as text: code points in
hexadecimal, `41` for one and `41-5A` for a range.
-/

set_option autoImplicit false

namespace DocStore

/-- A set of characters: ranges of code points in ascending order with gaps between them, ends
included. -/
structure CharSet where
  ranges : Array (Nat × Nat)
deriving BEq

namespace CharSet

/-! ## Building -/

/-- The greatest code point. -/
def top : Nat := 0x10FFFF

/-- Joins ranges in ascending order of their starts where they overlap or touch; `lo` and `hi` are
the ends of the range read so far. -/
def join (lo hi : Nat) : List (Nat × Nat) → List (Nat × Nat)
  | [] => [(lo, hi)]
  | (a, b) :: rest => if a ≤ hi + 1 then join lo (max hi b) rest else (lo, hi) :: join a b rest

/-- The set of ranges in any order. -/
def ofRanges (rs : List (Nat × Nat)) : CharSet :=
  match rs.mergeSort fun r s => decide (r.1 ≤ s.1) with
  | [] => ⟨#[]⟩
  | (a, b) :: rest => ⟨(join a b rest).toArray⟩

/-- The set without members. -/
def empty : CharSet := ⟨#[]⟩

/-- The characters from one code point to another. -/
def range (lo hi : Nat) : CharSet := ⟨#[(lo, hi)]⟩

/-- The set of one character. -/
def single (c : Char) : CharSet := range c.toNat c.toNat

/-- The set of the characters of a text. -/
def ofChars (s : String) : CharSet := ofRanges (s.toList.map fun c => (c.toNat, c.toNat))

/-! ## Tables -/

/-- The words of a text, which blanks and line breaks separate. -/
def words (s : String) : List String :=
  ((s.splitOn "\n").flatMap (·.splitOn " ")).filter fun w => !w.isEmpty

/-- The value of upper-case hexadecimal digits. -/
def hexValue? (s : String) : Option Nat :=
  s.toList.foldlM (fun n c =>
    if c.isDigit then some (n * 16 + (c.toNat - 48))
    else if 'A' ≤ c ∧ c ≤ 'F' then some (n * 16 + (c.toNat - 55))
    else none) 0

/-- One range of a table. -/
def range? (s : String) : Option (Nat × Nat) :=
  match s.splitOn "-" with
  | [a] => (hexValue? a).map fun n => (n, n)
  | [a, b] => do return (← hexValue? a, ← hexValue? b)
  | _ => none

/-- The set that a table in ascending order writes. -/
def ofText (s : String) : CharSet := ⟨((words s).filterMap range?).toArray⟩

/-! ## Membership -/

/-- Looks for a code point between two places of the ranges. -/
def search (s : CharSet) (n lo hi : Nat) : Bool :=
  if lo < hi then
    let mid := (lo + hi) / 2
    match s.ranges[mid]? with
    | none => false
    | some (a, b) =>
      if n < a then search s n lo mid
      else if b < n then search s n (mid + 1) hi
      else true
  else false
termination_by hi - lo

/-- Whether a code point is in the set. -/
def holds (s : CharSet) (n : Nat) : Bool := s.search n 0 s.ranges.size

/-- Whether a character is in the set. -/
def contains (s : CharSet) (c : Char) : Bool := s.holds c.toNat

/-- Whether the set has no members. -/
def isEmpty (s : CharSet) : Bool := s.ranges.isEmpty

/-- Whether all members are ASCII characters. -/
def isAscii (s : CharSet) : Bool := s.ranges.all fun r => decide (r.2 < 128)

/-- The only member of a set that has one. -/
def only? (s : CharSet) : Option Char :=
  match s.ranges.toList with
  | [(a, b)] => if a = b then some (Char.ofNat a) else none
  | _ => none

/-! ## Algebra -/

/-- The members of any of some sets. -/
def unions (ss : List CharSet) : CharSet := ofRanges (ss.flatMap fun s => s.ranges.toList)

/-- The members of either set. -/
def union (s t : CharSet) : CharSet := unions [s, t]

/-- The code point after one. Surrogates, which are no characters, are skipped. -/
def next (n : Nat) : Nat := if n = 0xD7FF then 0xE000 else n + 1

/-- The code point before one. -/
def previous (n : Nat) : Nat := if n = 0xE000 then 0xD7FF else n - 1

/-- The gaps after the end of a range and between the ranges that follow it. A gap that holds
nothing but surrogates is given by its neighbours. -/
def gaps (hi : Nat) : List (Nat × Nat) → List (Nat × Nat)
  | [] => if hi < top then [(next hi, top)] else []
  | (a, b) :: rest => (min (next hi) (previous a), max (next hi) (previous a)) :: gaps b rest

/-- All other characters. -/
def compl (s : CharSet) : CharSet :=
  match s.ranges.toList with
  | [] => range 0 top
  | (a, b) :: rest => ⟨((if 0 < a then [(0, previous a)] else []) ++ gaps b rest).toArray⟩

/-- What ranges in ascending order leave of the code points from `lo` to `hi`. -/
def cut (lo hi : Nat) : List (Nat × Nat) → List (Nat × Nat)
  | [] => [(lo, hi)]
  | (c, d) :: rest =>
    if d < lo then cut lo hi rest
    else if hi < c then [(lo, hi)]
    else (if lo < c then [(lo, previous c)] else []) ++
      (if d < hi then cut (next d) hi rest else [])

/-- The members of one set that are not in the other. -/
def diff (s t : CharSet) : CharSet :=
  ⟨(s.ranges.toList.flatMap fun r => cut r.1 r.2 t.ranges.toList).toArray⟩

/-- The members of both sets. -/
def inter (s t : CharSet) : CharSet :=
  ⟨s.ranges.flatMap fun r => t.ranges.filterMap fun r' =>
    let lo := max r.1 r'.1
    let hi := min r.2 r'.2
    if lo ≤ hi then some (lo, hi) else none⟩

/-- The members of exactly one of the sets. -/
def symmDiff (s t : CharSet) : CharSet := (s.union t).diff (s.inter t)

end CharSet

end DocStore
