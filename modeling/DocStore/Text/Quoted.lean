import DocStore.Unicode.Property

/-!
# Quoted text

A text between double quotes in which every character is told apart: quotes and backslashes are
escaped, the common controls by a letter, and what cannot be shown by its number in hexadecimal.
-/

set_option autoImplicit false

namespace DocStore.Quoted

/-- A character between the quotes. -/
def escapeChar : Char → List Char
  | '"' => ['\\', '"']
  | '\\' => ['\\', '\\']
  | '\n' => ['\\', 'n']
  | '\r' => ['\\', 'r']
  | '\t' => ['\\', 't']
  | '\x00' => ['\\', '0']
  | c =>
    if Unicode.isPrintable c then [c]
    else ['\\', 'u', '\x7b'] ++ Nat.toDigits 16 c.toNat ++ ['\x7d']

/-- The quoted form of a text. -/
def encode (s : String) : String :=
  String.ofList ('"' :: s.toList.flatMap escapeChar ++ ['"'])

end DocStore.Quoted
