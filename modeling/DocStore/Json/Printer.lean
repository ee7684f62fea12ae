import DocStore.Json.Basic
import DocStore.Number.Decimal

/-!
# Writing JSON

Compact JSON text: no blanks, every character above the controls as it is, and numbers as
`Decimal.Layout.json` lays them out. A double that is not finite has no JSON number and is written
as `null`.
-/

set_option autoImplicit false

namespace DocStore.Json

/-- A digit of four bits, lower case. -/
def hexDigit (n : Nat) : Char := Char.ofNat (if n < 10 then 48 + n else 87 + n)

/-- A character inside a quoted text. -/
def escapeChar : Char → List Char
  | '"' => ['\\', '"']
  | '\\' => ['\\', '\\']
  | '\x08' => ['\\', 'b']
  | '\x0c' => ['\\', 'f']
  | '\n' => ['\\', 'n']
  | '\r' => ['\\', 'r']
  | '\t' => ['\\', 't']
  | c =>
    if c.toNat < 32 then ['\\', 'u', '0', '0', hexDigit (c.toNat / 16), hexDigit (c.toNat % 16)]
    else [c]

/-- A quoted text. -/
def quote (s : String) : String :=
  String.ofList ('"' :: s.toList.flatMap escapeChar ++ ['"'])

/-- The text of a number. -/
def Number.render : Number → String
  | .integer n => toString n
  | .double f => if Binary64.isFinite f then Decimal.Layout.json.format f else "null"

mutual

/-- The compact text of a JSON value. -/
def render : Json → String
  | null => "null"
  | bool b => if b then "true" else "false"
  | number n => n.render
  | string s => quote s
  | array items => "[" ++ renderItems items ++ "]"
  | object fields => "\x7b" ++ renderFields fields ++ "\x7d"

/-- The items of an array, separated by commas. -/
def renderItems : List Json → String
  | [] => ""
  | [v] => render v
  | v :: rest => render v ++ "," ++ renderItems rest

/-- The fields of an object, separated by commas. -/
def renderFields : List (String × Json) → String
  | [] => ""
  | [(k, v)] => quote k ++ ":" ++ render v
  | (k, v) :: rest => quote k ++ ":" ++ render v ++ "," ++ renderFields rest

end

theorem renderItems_cons_cons (v w : Json) (rest : List Json) :
    renderItems (v :: w :: rest) = v.render ++ "," ++ renderItems (w :: rest) := by
  simp [renderItems]

theorem renderFields_cons_cons (k : String) (v : Json) (e : String × Json)
    (rest : List (String × Json)) :
    renderFields ((k, v) :: e :: rest) =
      quote k ++ ":" ++ v.render ++ "," ++ renderFields (e :: rest) := by
  simp [renderFields]

end DocStore.Json
