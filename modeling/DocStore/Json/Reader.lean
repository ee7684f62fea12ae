import DocStore.Json.Token

/-!
# Reading JSON

A value is built from tokens with an explicit stack of the arrays and objects that are still open,
so the nesting of a text is the height of that stack. At most `maxDepth` may be open at once. An
object may name a field twice where it is written; what is read has each name once.
-/

set_option autoImplicit false

namespace DocStore.Json

/-- The deepest nesting that is read. -/
def maxDepth : Nat := 127

/-- An array or object that is still open. -/
inductive Frame where
  /-- The items so far, in reverse. -/
  | array (done : List Json)
  /-- The fields so far, in reverse, and the name whose value is being read. -/
  | object (done : List (String × Json)) (key : String)

/-- What may come next; each position holds the open frames, the innermost first. -/
inductive Position where
  /-- A value. -/
  | value (open_ : List Frame)
  /-- The first item of an array, or its end. -/
  | firstItem (open_ : List Frame)
  /-- The first name of an object, or its end. -/
  | firstName (open_ : List Frame)
  /-- A further name of an object. -/
  | name (done : List (String × Json)) (open_ : List Frame)
  /-- The colon after a name. -/
  | colon (done : List (String × Json)) (key : String) (open_ : List Frame)
  /-- After a whole value: a comma, the end of the innermost frame, or the end of the text. -/
  | after (v : Json) (open_ : List Frame)

/-- A value starts here. -/
def Position.begin? (open_ : List Frame) : Token → Option Position
  | .null => some (.after .null open_)
  | .bool b => some (.after (.bool b) open_)
  | .number n => some (.after (.number n) open_)
  | .string s => some (.after (.string s) open_)
  | .openArray => if open_.length < maxDepth then some (.firstItem open_) else none
  | .openObject => if open_.length < maxDepth then some (.firstName open_) else none
  | _ => none

/-- The position after one more token, if the token may stand there. -/
def Position.step? : Position → Token → Option Position
  | .value open_, t => begin? open_ t
  | .firstItem open_, .closeArray => some (.after (.array []) open_)
  | .firstItem open_, t => begin? (.array [] :: open_) t
  | .firstName open_, .closeObject => some (.after (.object []) open_)
  | .firstName open_, .string s => some (.colon [] s open_)
  | .name done open_, .string s => some (.colon done s open_)
  | .colon done key open_, .colon => some (.value (.object done key :: open_))
  | .after v (.array done :: open_), .comma => some (.value (.array (v :: done) :: open_))
  | .after v (.array done :: open_), .closeArray =>
    some (.after (.array (done.reverse ++ [v])) open_)
  | .after v (.object done key :: open_), .comma => some (.name ((key, v) :: done) open_)
  | .after v (.object done key :: open_), .closeObject =>
    some (.after (.object (done.reverse ++ [(key, v)])) open_)
  | _, _ => none

/-- The value of a run of tokens that ends with the text. -/
def Position.run? : Position → List Token → Option Json
  | .after v [], [] => some v
  | _, [] => none
  | p, t :: ts => (p.step? t).bind (run? · ts)

/-- Reads a JSON text as it is written, or none if it is no JSON text or nests too deeply. -/
def written? (text : String) : Option Json :=
  (Token.scan text).bind (Position.run? (.value []))

/-! ## Repeated names -/

mutual

/-- The value with each name of an object once, in its first place and with its last value. -/
def merged : Json → Json
  | array items => array (mergedItems items)
  | object fields => object (Fields.ofEntries (mergedFields fields))
  | j => j

/-- The items of an array, each merged. -/
def mergedItems : List Json → List Json
  | [] => []
  | v :: rest => merged v :: mergedItems rest

/-- The values of fields, each merged; repeated names stay. -/
def mergedFields : List (String × Json) → List (String × Json)
  | [] => []
  | (k, v) :: rest => (k, merged v) :: mergedFields rest

end

/-- Reads a JSON text, with each name of an object once. -/
def parse? (text : String) : Option Json := (written? text).map merged

end DocStore.Json
