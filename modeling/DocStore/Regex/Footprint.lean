import DocStore.Regex.Basic
import Std.Data.HashMap

/-!
# The size of the automaton of an expression

An expression is accepted if the automaton that it compiles to, and the one that reads texts from
their end, stay below a fixed number of bytes. An automaton reads UTF-8 byte by byte. Each of its
states takes the same room; more is taken by a state for each range of bytes on which it goes on,
and by a junction for each of its ways. Repetitions are written out, so their bodies are counted
as often as they stand in the automaton; states for characters outside ASCII are shared.
-/

set_option autoImplicit false

namespace DocStore.Regex.Footprint

/-! ## Counting -/

/-- The states of an automaton so far and the bytes taken in addition to theirs. -/
structure Usage where
  states : Nat := 0
  extra : Nat := 0

/-- The bytes of a state. -/
def stateSize : Nat := 32

/-- The bytes of a range of bytes on which a state goes on. -/
def rangeSize : Nat := 8

/-- The bytes of a way out of a junction. -/
def waySize : Nat := 4

/-- The greatest size of an automaton in bytes. -/
def limit : Nat := 10 * 1024 * 1024

/-- Whether an automaton is within the limit. -/
def Usage.fits (u : Usage) : Bool := decide (u.states * stateSize + u.extra ≤ limit)

/-- A count that ends where the limit is exceeded. -/
abbrev Meter := StateT Usage Option

/-- Counts a state with more bytes and gives its number. -/
def state (extra : Nat) : Meter Nat := fun u =>
  let u' : Usage := { states := u.states + 1, extra := u.extra + extra }
  if u'.fits then some (u.states, u') else none

/-- Counts more bytes. -/
def more (bytes : Nat) : Meter Unit := fun u =>
  let u' : Usage := { u with extra := u.extra + bytes }
  if u'.fits then some ((), u') else none

/-- The last state of a part: from a junction the way on takes room. -/
inductive Last where
  | plain
  | junction

/-- Counts the way on from a part. -/
def leave : Last → Meter Unit
  | .plain => pure ()
  | .junction => more waySize

/-! ## UTF-8 -/

/-- Ranges of bytes, one for each byte of an encoding. -/
abbrev ByteRanges := List (Nat × Nat)

/-- The bytes of a code point. -/
def utf8 (n : Nat) : List Nat := (String.utf8EncodeChar (Char.ofNat n)).map UInt8.toNat

/-- Where a range of code points is divided: the end of its first part and the start of its second.
A range is left whole if its encodings have the same length and are all that lie between the first
and the last in each byte. -/
def divide? (lo hi : Nat) : Option (Nat × Nat) :=
  if lo < 0xE000 ∧ 0xD7FF < hi then some (0xD7FF, 0xE000)
  else
    match [0x7F, 0x7FF, 0xFFFF].find? fun m => decide (lo ≤ m ∧ m < hi) with
    | some m => some (m, m + 1)
    | none =>
      if hi < 0x80 then none
      else
        [64, 4096, 262144].findSome? fun block =>
          if lo / block = hi / block then none
          else if lo % block ≠ 0 then
            some ((lo / block + 1) * block - 1, (lo / block + 1) * block)
          else if hi % block ≠ block - 1 then some (hi / block * block - 1, hi / block * block)
          else none

/-- The encodings of a range of code points; `fuel` bounds how often it is divided. -/
def encodings (fuel : Nat) (lo hi : Nat) : List ByteRanges :=
  if hi < lo then []
  else
    match fuel, divide? lo hi with
    | fuel + 1, some (hi', lo') => encodings fuel lo hi' ++ encodings fuel lo' hi
    | _, _ => [(utf8 lo).zip (utf8 hi)]

/-- The encodings of a set. Division puts the ends of a range on the borders of ever larger blocks,
which takes a few steps. -/
def encodingsOf (s : CharSet) : List ByteRanges :=
  s.ranges.toList.flatMap fun r => encodings 32 r.1 r.2

/-! ## States that are shared -/

/-- A state as it is looked for: the ranges on which it goes on, and the numbers of the states
there. -/
abbrev Outline := List (Nat × Nat × Nat)

/-- The states that are remembered, by slot. A slot holds the newest state that belongs there. -/
structure Memory where
  size : Nat
  slots : Std.HashMap Nat (Outline × Nat) := {}

/-- One step of the hash of an outline. -/
def mix (h : UInt64) (n : Nat) : UInt64 := (h ^^^ n.toUInt64) * 1099511628211

/-- The slot of numbers in a memory. -/
def Memory.slot (memory : Memory) (ns : List Nat) : Nat :=
  (ns.foldl mix 14695981039346656037).toNat % memory.size

/-- The number of a remembered state, or of a new one, which is remembered. -/
def share (hashed : List Nat) (outline : Outline) (extra : Nat) (memory : Memory) :
    Meter (Nat × Memory) := do
  let slot := memory.slot hashed
  match memory.slots[slot]? with
  | some (known, id) => if known = outline then return (id, memory)
  | none => pure ()
  let id ← state extra
  return (id, { memory with slots := memory.slots.insert slot (outline, id) })

/-! ## Sets read from the front -/

/-- A state that is not finished: the ranges on which it goes on to finished states, in reverse, and
the one that is still followed. -/
structure Open where
  done : Outline
  current : Nat × Nat

/-- Finishes the states of a path from its end and gives the number of the first; `target` is the
state after the path. -/
def finish (target : Nat) : List Open → Memory → Meter (Nat × Memory)
  | [], memory => pure (target, memory)
  | node :: path, memory => do
    let (next, memory) ← finish target path memory
    let outline := ((node.current.1, node.current.2, next) :: node.done).reverse
    share (outline.flatMap fun t => [t.1, t.2.1, t.2.2]) outline (rangeSize * outline.length) memory

/-- Adds an encoding to a path: what they begin with in common is kept, and the rest of the path is
finished. -/
def extend (target : Nat) : List Open → ByteRanges → Memory → Meter (List Open × Memory)
  | node :: path, r :: rs, memory =>
    if node.current = r then do
      let (path, memory) ← extend target path rs memory
      return (node :: path, memory)
    else do
      let (next, memory) ← finish target path memory
      let done := (node.current.1, node.current.2, next) :: node.done
      return ({ done, current := r } :: rs.map fun r => { done := [], current := r }, memory)
  | _, rs, memory => pure (rs.map fun r => { done := [], current := r }, memory)

/-- Counts the states of a set that reads characters from their first byte. -/
def setForward (s : CharSet) : Meter Unit := do
  let target ← state 0
  let (path, memory) ← (encodingsOf s).foldlM
    (fun p rs => extend target p.1 rs p.2) (([], { size := 10000 }) : List Open × Memory)
  let _ ← finish target path memory

/-! ## Sets read from the back -/

/-- Counts the states of an encoding that is read from its last byte, up to the state `target`. -/
def encodingBackward (target : Nat) : ByteRanges → Memory → Meter Memory
  | [], memory => pure memory
  | (lo, hi) :: rs, memory => do
    let (id, memory) ← share [target, lo, hi] [(lo, hi, target)] 0 memory
    encodingBackward id rs memory

/-- Counts the states of a set that reads characters from their last byte. -/
def setBackward (s : CharSet) : Meter Unit := do
  let _ ← state 0
  let target ← state 0
  let _ ← (encodingsOf s).foldlM (fun memory rs => do
    let memory ← encodingBackward target rs memory
    more waySize
    return memory) ({ size := 1000 } : Memory)

/-- Counts the states of a set. ASCII characters are bytes. -/
def ofSet (side : Side) (s : CharSet) : Meter Last := do
  if s.isAscii then
    let _ ← state 0
    let _ ← state (rangeSize * s.ranges.size)
  else
    match side with
    | .front => setForward s
    | .back => setBackward s
  return .plain

/-! ## Texts -/

/-- The bytes of a text in the order in which they are read. -/
def bytesOf (side : Side) (text : List Char) : List Nat :=
  let bytes := (text.flatMap String.utf8EncodeChar).map UInt8.toNat
  match side with
  | .front => bytes
  | .back => bytes.reverse

/-- Counts the states of a text: one for each byte, and one if there is none. -/
def ofText (side : Side) (text : List Char) : Meter Last := do
  let bytes := bytesOf side text
  if bytes.isEmpty then
    let _ ← state 0
  else
    bytes.forM fun _ => do
      let _ ← state 0
  return .plain

/-- Divides words at the empty ones. -/
def divideWords : List (List Nat) → List (List (List Nat))
  | [] => [[]]
  | [] :: words => [] :: divideWords words
  | w :: words =>
    match divideWords words with
    | [] => [[w]]
    | chunk :: chunks => (w :: chunk) :: chunks

/-- The rests of the words that begin with each of the first bytes that occur. -/
def branches (words : List (List Nat)) : List (List (List Nat)) :=
  (words.filterMap (·.head?)).eraseDups.map fun b =>
    words.filterMap fun w => if w.head? = some b then some w.tail else none

/-- Counts the states below a node of a tree of words. A word that ends at a node closes the list of
the branches before it; `fuel` bounds the length of the words. -/
def ofWords : Nat → List (List Nat) → Meter Unit
  | 0, _ => pure ()
  | fuel + 1, words => do
    let words := match words with
      | [] :: words => [] :: words.dropWhile (·.isEmpty)
      | _ => words
    let chunks := divideWords words
    chunks.forM fun chunk => do
      let parts := branches chunk
      parts.forM fun part => if part.all (·.isEmpty) then pure () else ofWords fuel part
      match parts.length with
      | 0 => pure ()
      | 1 => let _ ← state 0
      | n => let _ ← state (rangeSize * n)
    let closed := chunks.length - 1
    let _ ← state (waySize * (closed + (chunks.filter (!·.isEmpty)).length))

/-- Counts the states of a choice between texts, which are put into a tree. -/
def ofTexts (side : Side) (texts : List (List Char)) : Meter Last := do
  let words := texts.map (bytesOf side)
  let _ ← state 0
  ofWords ((words.map List.length).foldl max 0 + 1) words
  return .plain

/-- The texts of a choice if there is nothing else in it. -/
def texts? (rs : List Regex) : Option (List (List Char)) :=
  rs.mapM fun
    | .literal (c :: cs) => some (c :: cs)
    | _ => none

/-! ## Repetitions -/

/-- Counts a part so many more times after one that ends in `last`. -/
def again (part : Meter Last) : Nat → Last → Meter Last
  | 0, last => pure last
  | n + 1, last => do
    let next ← part
    leave last
    again part n next

/-- Counts a part so many times. -/
def copies (part : Meter Last) : Nat → Meter Last
  | 0 => do
    let _ ← state 0
    return .plain
  | n + 1 => do again part n (← part)

/-- Counts a part so many more times, each of which may be the last. -/
def maybeAgain (part : Meter Last) : Nat → Last → Meter Last
  | 0, last => pure last
  | n + 1, last => do
    let _ ← state (2 * waySize)
    let next ← part
    leave last
    maybeAgain part n next

/-- Counts a repetition without bound. If the part can match the empty text, a repetition that may
be left out has a junction more. -/
def unbounded (part : Meter Last) (consumes : Bool) : Nat → Meter Last
  | 0 => do
    if consumes then
      let _ ← state waySize
      leave (← part)
      return .junction
    else
      leave (← part)
      let _ ← state (2 * waySize)
      let _ ← state (2 * waySize)
      let _ ← state 0
      return .plain
  | 1 => do
    leave (← part)
    let _ ← state waySize
    return .junction
  | n + 2 => do
    let before ← copies part (n + 1)
    let last ← part
    let _ ← state waySize
    leave before
    leave last
    return .junction

/-- Counts a repetition. -/
def repetition (part : Meter Last) (consumes : Bool) (least : Nat) : Option Nat → Meter Last
  | none => unbounded part consumes least
  | some most =>
    if most = least then copies part least
    else if least = 0 ∧ most = 1 then do
      let _ ← state (2 * waySize)
      leave (← part)
      let _ ← state 0
      return .plain
    else do
      let before ← copies part least
      let _ ← state 0
      leave (← maybeAgain part (most - least) before)
      return .plain

/-! ## Expressions -/

mutual

/-- Counts the states of an expression in an automaton that reads from the given side. Groups are
remembered by the one that reads from the front. -/
def ofRegex (side : Side) : Regex → Meter Last
  | .literal text => ofText side text
  | .set s => ofSet side s
  | .place _ => do
    let _ ← state 0
    return .plain
  | .repeated r least most =>
    repetition (ofRegex side r) (decide (0 < r.minLength.getD 0)) least most
  | .group r =>
    match side with
    | .front => do
      let _ ← state 0
      leave (← ofRegex side r)
      let _ ← state 0
      return .plain
    | .back => ofRegex side r
  | .seq rs => return (← ofSeq side none rs).getD .plain
  | .alt rs =>
    match texts? rs with
    | some texts => ofTexts side texts
    | none => do
      ofAlt side 0 rs
      return .plain

/-- Counts expressions one after the other; `before` is how the ones before them end. -/
def ofSeq (side : Side) (before : Option Last) : List Regex → Meter (Option Last)
  | [] => pure before
  | r :: rs =>
    match side with
    | .front => do
      let last ← ofRegex side r
      before.forM leave
      ofSeq side (some last) rs
    | .back => do
      let before ← ofSeq side before rs
      let last ← ofRegex side r
      before.forM leave
      return some last

/-- Counts expressions that are chosen from after `n` others. The junction before them and the state
after them come once the second has been counted. -/
def ofAlt (side : Side) (n : Nat) : List Regex → Meter Unit
  | [] => pure ()
  | r :: rs => do
    leave (← ofRegex side r)
    more waySize
    if n = 1 then
      let _ ← state 0
      let _ ← state 0
    ofAlt side (n + 1) rs

end

/-! ## Automata -/

/-- Counts the start of an automaton: unless all matches are anchored, it skips any bytes. -/
def start (isAnchored : Bool) : Meter Unit := do
  if isAnchored then
    let _ ← state 0
  else
    let _ ← state (2 * waySize)
    let _ ← state 0
    let _ ← state rangeSize

/-- Counts the automaton of an expression that reads from the given side. The whole match is a group
of its own. -/
def automaton (side : Side) (r : Regex) : Meter Unit := do
  start (anchored side r)
  leave (← ofRegex side (.group r))
  let _ ← state 0

end Footprint

/-- Whether both automata of an expression are within the limit. -/
def fits (r : Regex) : Bool :=
  ((Footprint.automaton .front r).run {}).isSome && ((Footprint.automaton .back r).run {}).isSome

end DocStore.Regex
