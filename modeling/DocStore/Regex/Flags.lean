/-!
# Flags of regular expressions

The flags that a group such as `(?i-s:…)` sets and clears.
-/

set_option autoImplicit false

namespace DocStore.Regex

/-- The flags in force at a place of an expression. -/
structure Flags where
  /-- Letters match in either case. -/
  ignoreCase : Bool := false
  /-- The line anchors match at every line. -/
  multiLine : Bool := false
  /-- The dot matches line feeds too. -/
  dotAll : Bool := false
  /-- Classes and boundaries follow Unicode and not ASCII. -/
  unicode : Bool := true
  /-- Lines may end in a carriage return. -/
  crlf : Bool := false
  /-- Blanks and comments in the expression count for nothing. -/
  verbose : Bool := false

namespace Flags

/-- Sets or clears the flag of a letter; none for a letter without a flag. -/
def assign? (flags : Flags) (c : Char) (on : Bool) : Option Flags :=
  match c with
  | 'i' => some { flags with ignoreCase := on }
  | 'm' => some { flags with multiLine := on }
  | 's' => some { flags with dotAll := on }
  | 'u' => some { flags with unicode := on }
  | 'R' => some { flags with crlf := on }
  | 'x' => some { flags with verbose := on }
  | 'U' => some flags
  | _ => none

/-- Applies the letters of a group up to the colon or parenthesis that ends them, and gives the
rest from there. A letter may occur once, the minus sign once, and the minus sign not last. -/
def read? (flags : Flags) (seen : List Char) : List Char → Option (Flags × List Char)
  | [] => none
  | c :: cs =>
    if c = ':' ∨ c = ')' then
      if seen.head? = some '-' then none else some (flags, c :: cs)
    else if seen.contains c then none
    else if c = '-' then read? flags (c :: seen) cs
    else (flags.assign? c (!seen.contains '-')).bind fun flags => read? flags (c :: seen) cs

end Flags

end DocStore.Regex
