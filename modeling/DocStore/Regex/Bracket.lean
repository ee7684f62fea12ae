import DocStore.Regex.Escape

/-!
# Classes in brackets

A class lists its members between brackets: characters, ranges, escapes, names between colons and
classes of their own. Lists can be intersected and subtracted. Reading gives the set together with
the depth to which its parts are nested, which is bounded for whole expressions.
-/

set_option autoImplicit false

namespace DocStore.Regex

/-! ## Lists of members -/

/-- A set with the depth of what wrote it. -/
structure Operand where
  set : CharSet
  depth : Nat

/-- The members of a list read so far, and the greatest depth among them. -/
structure Members where
  sets : List CharSet := []
  depth : Nat := 0

/-- The list with one more member. -/
def Members.add (m : Members) (s : CharSet) (depth : Nat) : Members :=
  { sets := s :: m.sets, depth := max m.depth depth }

/-- The set of all members. A list of two at least is one level deeper than they are. -/
def Members.operand (m : Members) : Operand :=
  { set := .unions m.sets, depth := if m.sets.length ≤ 1 then m.depth else m.depth + 1 }

/-! ## Operations on sets -/

/-- The ways to combine two sets inside brackets. -/
inductive SetOperation where
  | intersection
  | difference
  | symmetricDifference

/-- The set that an operation makes of two. -/
def SetOperation.apply : SetOperation → CharSet → CharSet → CharSet
  | intersection => CharSet.inter
  | difference => CharSet.diff
  | symmetricDifference => CharSet.symmDiff

/-- What stands left of the place that is read, together with the operation that awaits its right
side. -/
abbrev Pending := Option (Operand × SetOperation)

/-- What an operation gives once its right side is there. -/
def resolve (flags : Flags) (pending : Pending) (right : Operand) : Operand :=
  match pending with
  | none => right
  | some (left, op) =>
    { set := op.apply (folded flags left.set) (folded flags right.set),
      depth := max left.depth right.depth + 1 }

/-! ## Single members -/

/-- Reads a name between colons after the opening bracket, if there is one, and whether it is
negated. -/
def nameInColons? : Reader (CharSet × Bool)
  | ':' :: cs =>
    let (negated, cs) := match cs with
      | '^' :: rest => (true, rest)
      | _ => (false, cs)
    match cs.dropWhile (· != ':') with
    | ':' :: ']' :: rest =>
      (colonClass? (String.ofList (cs.takeWhile (· != ':')))).map fun s => ((s, negated), rest)
    | _ => none
  | _ => none

/-- Reads a primitive inside brackets. -/
def classPrimitive? (flags : Flags) : Reader Primitive
  | [] => none
  | '\\' :: cs => escape? flags cs
  | c :: cs => some (.literal c false, cs)

/-- The character of a primitive that is one; without Unicode an ASCII one. -/
def Primitive.char? (flags : Flags) : Primitive → Option Char
  | literal c _ => if flags.unicode ∨ c.toNat < 128 then some c else none
  | _ => none

/-- The first character that is no blank and does not start a comment. What a comment says is not
passed over. -/
def firstVisible? (inComment : Bool) : List Char → Option Char
  | [] => none
  | c :: cs =>
    if Unicode.isWhiteSpace c then firstVisible? inComment cs
    else if c = '#' ∧ !inComment then firstVisible? true cs
    else some c

/-- The character that decides whether a hyphen before it makes a range. -/
def afterHyphen? (flags : Flags) (cs : List Char) : Option Char :=
  if flags.verbose then firstVisible? false cs <|> cs.head? else cs.head?

/-- Reads a single member of a class or a range of them. -/
def classRange? (flags : Flags) : Reader CharSet := fun cs => do
  let (first, cs) ← classPrimitive? flags cs
  let member : Option CharSet :=
    match first with
    | .set s => some s
    | p => (p.char? flags).map CharSet.single
  match skip flags cs with
  | [] => none
  | '-' :: rest =>
    let next := afterHyphen? flags rest
    if next = some ']' ∨ next = some '-' then member.map fun s => (s, '-' :: rest)
    else do
      let (second, rest) ← classPrimitive? flags (skip flags rest)
      let lo ← first.char? flags
      let hi ← second.char? flags
      if lo ≤ hi then some (CharSet.range lo.toNat hi.toNat, rest) else none
  | rest => member.map fun s => (s, rest)

/-! ## Classes -/

/-- Reads the hyphens at the start of a class, which stand for themselves. -/
def leadingHyphens (flags : Flags) (fuel : Nat) (members : Members) (cs : List Char) :
    Members × List Char :=
  match fuel, cs with
  | fuel + 1, '-' :: rest =>
    leadingHyphens flags fuel (members.add (.single '-') 0) (skip flags rest)
  | _, _ => (members, cs)

/-- Reads the start of a class after its bracket: whether it is negated, and the hyphens or the
closing bracket that stand for themselves there. -/
def classStart (flags : Flags) (cs : List Char) : Bool × Members × List Char :=
  let cs := skip flags cs
  let (negated, cs) := match cs with
    | '^' :: rest => (true, skip flags rest)
    | _ => (false, cs)
  let (hyphens, cs) := leadingHyphens flags cs.length {} cs
  match hyphens.sets, cs with
  | [], ']' :: rest => (negated, hyphens.add (.single ']') 0, skip flags rest)
  | _, _ => (negated, hyphens, cs)

/-- Reads the members of a class up to its closing bracket. -/
def classBody? (flags : Flags) : Nat → Pending → Members → Reader Operand
  | 0, _, _, _ => none
  | fuel + 1, pending, members, cs =>
    let combine (op : SetOperation) : Pending := some (resolve flags pending members.operand, op)
    match skip flags cs with
    | [] => none
    | ']' :: rest => some (resolve flags pending members.operand, rest)
    | '[' :: rest =>
      match nameInColons? rest with
      | some ((s, negated), rest) => do
        let s ← others? flags negated (folded flags s)
        classBody? flags fuel pending (members.add s 0) rest
      | none => do
        let (negated, first, rest) := classStart flags rest
        let (inner, rest) ← classBody? flags fuel none first rest
        let s ← others? flags negated (folded flags inner.set)
        classBody? flags fuel pending (members.add s (inner.depth + 1)) rest
    | '&' :: '&' :: rest => classBody? flags fuel (combine .intersection) {} rest
    | '-' :: '-' :: rest => classBody? flags fuel (combine .difference) {} rest
    | '~' :: '~' :: rest => classBody? flags fuel (combine .symmetricDifference) {} rest
    | cs => do
      let (s, rest) ← classRange? flags cs
      classBody? flags fuel pending (members.add s 0) rest

/-- Reads a class after its opening bracket. -/
def class? (flags : Flags) : Reader Operand := fun cs => do
  let (negated, first, rest) := classStart flags cs
  let (inner, rest) ← classBody? flags (cs.length + 1) none first rest
  let s ← others? flags negated (folded flags inner.set)
  return ({ set := s, depth := inner.depth + 1 }, rest)

end DocStore.Regex
