import DocStore.Json.Numeral

/-!
# JSON tokens

`Token.scan` splits JSON text into tokens in one pass over its characters. Numerals and words are
taken as long as possible and then checked as a whole.
-/

set_option autoImplicit false

namespace DocStore.Json

/-- A token of JSON text. -/
inductive Token where
  | openArray
  | closeArray
  | openObject
  | closeObject
  | comma
  | colon
  | null
  | bool (b : Bool)
  | number (n : Number)
  | string (s : String)

namespace Token

/-- The characters that may stand between tokens. -/
def isBlank (c : Char) : Bool := c == ' ' || c == '\t' || c == '\n' || c == '\r'

/-- The tokens of one character. -/
def punctuation? : Char → Option Token
  | '[' => some openArray
  | ']' => some closeArray
  | '\x7b' => some openObject
  | '\x7d' => some closeObject
  | ',' => some comma
  | ':' => some colon
  | _ => none

/-- The characters of numerals. -/
def isNumeric (c : Char) : Bool :=
  c.isDigit || c == '+' || c == '-' || c == '.' || c == 'e' || c == 'E'

/-- The tokens that are words. -/
def word? (cs : List Char) : Option Token :=
  match String.ofList cs with
  | "null" => some null
  | "true" => some (bool true)
  | "false" => some (bool false)
  | _ => none

/-- The character that a one-letter escape stands for. -/
def simpleEscape? : Char → Option Char
  | '"' => some '"'
  | '\\' => some '\\'
  | '/' => some '/'
  | 'b' => some '\x08'
  | 'f' => some '\x0c'
  | 'n' => some '\n'
  | 'r' => some '\r'
  | 't' => some '\t'
  | _ => none

/-- The value of a hexadecimal digit. -/
def hexDigit? (c : Char) : Option Nat :=
  if c.isDigit then some (c.toNat - 48)
  else if 'a' ≤ c ∧ c ≤ 'f' then some (c.toNat - 87)
  else if 'A' ≤ c ∧ c ≤ 'F' then some (c.toNat - 55)
  else none

/-- The value of four hexadecimal digits. -/
def hexQuad? (a b c d : Char) : Option Nat := do
  return (((← hexDigit? a) * 16 + (← hexDigit? b)) * 16 + (← hexDigit? c)) * 16 + (← hexDigit? d)

/-- The first half of a surrogate pair. -/
def isLeading (n : Nat) : Bool := 0xD800 ≤ n && n < 0xDC00

/-- The second half of a surrogate pair. -/
def isTrailing (n : Nat) : Bool := 0xDC00 ≤ n && n < 0xE000

/-- The character of a surrogate pair. -/
def ofSurrogates (leading trailing : Nat) : Char :=
  Char.ofNat (0x10000 + (leading - 0xD800) * 0x400 + (trailing - 0xDC00))

/-- Where the scan stands: between tokens, or inside one whose characters are held in reverse. -/
inductive Mode where
  | between
  | numeral (seen : List Char)
  | word (seen : List Char)
  | quoted (seen : List Char)

/-- The token that ends where text or a delimiter cuts it off. -/
def Mode.finish? : Mode → Option (List Token)
  | .between => some []
  | .numeral seen => (Numeral.read? seen.reverse).map fun n => [number n]
  | .word seen => (word? seen.reverse).map fun t => [t]
  | .quoted _ => none

/-- Starts a token, or skips a blank. -/
def start? (c : Char) : Option (List Token × Mode) :=
  if isBlank c then some ([], .between)
  else if c = '"' then some ([], .quoted [])
  else if isNumeric c && c != 'e' && c != 'E' then some ([], .numeral [c])
  else if c.isAlpha then some ([], .word [c])
  else (punctuation? c).map fun t => ([t], .between)

/-- The tokens of the text that remains in a mode. -/
def scanFrom : Mode → List Char → Option (List Token)
  | mode, [] => mode.finish?
  | .between, c :: cs => do
    let (now, mode) ← start? c
    return now ++ (← scanFrom mode cs)
  | .numeral seen, c :: cs =>
    if isNumeric c then scanFrom (.numeral (c :: seen)) cs
    else do
      let ended ← Mode.finish? (.numeral seen)
      let (now, mode) ← start? c
      return ended ++ now ++ (← scanFrom mode cs)
  | .word seen, c :: cs =>
    if c.isAlphanum then scanFrom (.word (c :: seen)) cs
    else do
      let ended ← Mode.finish? (.word seen)
      let (now, mode) ← start? c
      return ended ++ now ++ (← scanFrom mode cs)
  | .quoted seen, '"' :: cs => do
    return string (String.ofList seen.reverse) :: (← scanFrom .between cs)
  | .quoted seen, '\\' :: 'u' :: a :: b :: c :: d :: cs => do
    let n ← hexQuad? a b c d
    if isLeading n then
      match cs with
      | '\\' :: 'u' :: e :: f :: g :: h :: cs =>
        let m ← hexQuad? e f g h
        if isTrailing m then scanFrom (.quoted (ofSurrogates n m :: seen)) cs else none
      | _ => none
    else if isTrailing n then none
    else scanFrom (.quoted (Char.ofNat n :: seen)) cs
  | .quoted seen, '\\' :: c :: cs => do
    let e ← simpleEscape? c
    scanFrom (.quoted (e :: seen)) cs
  | .quoted seen, c :: cs =>
    if c.toNat < 32 then none else scanFrom (.quoted (c :: seen)) cs

/-- Splits JSON text into tokens, or none if it holds something that is no token. -/
def scan (text : String) : Option (List Token) := scanFrom .between text.toList

end Token

end DocStore.Json
