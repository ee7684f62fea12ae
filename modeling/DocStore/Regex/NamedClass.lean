import DocStore.Unicode.Age
import DocStore.Unicode.Script
import DocStore.Unicode.Segmentation

/-!
# Classes by name

The sets of characters that have names in regular expressions: the letters `d`, `s` and `w`, the
names between colons, and the properties of Unicode.
-/

set_option autoImplicit false

namespace DocStore.Regex

/-! ## Letters and names between colons -/

/-- The ASCII characters of words. -/
def asciiWord : CharSet := .ofText "30-39 41-5A 5F 61-7A"

/-- The ASCII characters of white space. -/
def asciiSpace : CharSet := .ofText "9-D 20"

/-- The ASCII digits. -/
def asciiDigit : CharSet := .ofText "30-39"

/-- The class of the letter `d`, `s` or `w`. -/
def letterClass (unicode : Bool) (letter : Char) : CharSet :=
  match letter, unicode with
  | 'd', true => Unicode.decimalDigit
  | 's', true => Unicode.whiteSpace
  | 'd', false => asciiDigit
  | 's', false => asciiSpace
  | _, true => Unicode.word
  | _, false => asciiWord

/-- The class of a name between colons. -/
def colonClass? (name : String) : Option CharSet :=
  match name with
  | "alnum" => some (.ofText "30-39 41-5A 61-7A")
  | "alpha" => some (.ofText "41-5A 61-7A")
  | "ascii" => some (.ofText "0-7F")
  | "blank" => some (.ofText "9 20")
  | "cntrl" => some (.ofText "0-1F 7F")
  | "digit" => some asciiDigit
  | "graph" => some (.ofText "21-7E")
  | "lower" => some (.ofText "61-7A")
  | "print" => some (.ofText "20-7E")
  | "punct" => some (.ofText "21-2F 3A-40 5B-60 7B-7E")
  | "space" => some asciiSpace
  | "upper" => some (.ofText "41-5A")
  | "word" => some asciiWord
  | "xdigit" => some (.ofText "30-39 41-46 61-66")
  | _ => none

/-! ## Properties -/

/-- The letters of a name in lower case: blanks, hyphens, low lines and what is not ASCII are left
out. -/
def nameLetters (cs : List Char) : List Char :=
  (cs.filter fun c => decide (c.toNat < 128) && !(c == ' ' || c == '-' || c == '_')).map
    Char.toLower

/-- The form in which names are compared. A leading `is` counts for nothing, except in `isc`, which
is the name of a property of its own. -/
def comparable (name : List Char) : String :=
  match name with
  | i :: s :: rest =>
    if i.toLower = 'i' ∧ s.toLower = 's' then
      match nameLetters rest with
      | ['c'] => "isc"
      | letters => String.ofList letters
    else String.ofList (nameLetters name)
  | _ => String.ofList (nameLetters name)

/-- The set of a name: a yes-or-no property, a general category or a script. Three names of
categories are also names of properties that have no set. -/
def namedSet? (name : List Char) : Option CharSet :=
  let n := comparable name
  let own := if n = "cf" ∨ n = "sc" ∨ n = "lc" then none else Unicode.property? n
  own <|> Unicode.Category.set? n <|> Unicode.Script.set? n

/-- The set of the characters for which a property has a value. -/
def valueSet? (name value : List Char) : Option CharSet :=
  let v := comparable value
  match comparable name with
  | "gc" | "generalcategory" => Unicode.Category.set? v
  | "sc" | "script" => Unicode.Script.set? v
  | "scx" | "scriptextensions" => Unicode.Script.extended? v
  | "age" => Unicode.Age.set? v
  | "gcb" | "graphemeclusterbreak" =>
    Unicode.Segmentation.find? Unicode.Segmentation.clusterClasses v
  | "wb" | "wordbreak" => Unicode.Segmentation.find? Unicode.Segmentation.wordClasses v
  | "sb" | "sentencebreak" => Unicode.Segmentation.find? Unicode.Segmentation.sentenceClasses v
  | _ => none

/-- Splits a text at the first occurrence of a separator. -/
def splitFirst? (separator : List Char) : List Char → Option (List Char × List Char)
  | [] => none
  | c :: cs =>
    if separator.isPrefixOf (c :: cs) then some ([], (c :: cs).drop separator.length)
    else (splitFirst? separator cs).map fun p => (c :: p.1, p.2)

/-- The set of what stands between the braces of a property, with whether it is denied there. -/
def bracedSet? (content : List Char) : Option (CharSet × Bool) :=
  match splitFirst? ['!', '='] content with
  | some (name, value) => (valueSet? name value).map fun s => (s, true)
  | none =>
    match splitFirst? [':'] content <|> splitFirst? ['='] content with
    | some (name, value) => (valueSet? name value).map fun s => (s, false)
    | none => (namedSet? content).map fun s => (s, false)

end DocStore.Regex
