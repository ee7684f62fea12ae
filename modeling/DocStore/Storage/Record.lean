import DocStore.Document.Basic
import DocStore.Json.Reader
import DocStore.Storage.Crc32

/-!
# Journal records

A record is a change of a list of documents. A line of a journal is the checksum of a record's JSON
text in hexadecimal digits, a space and the text.
-/

set_option autoImplicit false

namespace DocStore

/-- A change of a list of documents. -/
inductive JournalRecord where
  /-- A document is appended. -/
  | insert (doc : Document)
  /-- The document of an id gives way to another. -/
  | replace (id : DocumentId) (doc : Document)
  /-- The document of an id is removed. -/
  | remove (id : DocumentId)

namespace JournalRecord

/-! ## JSON -/

/-- A record as JSON. -/
def toJson : JournalRecord → Json
  | insert doc => .object [("op", .string "insert"), ("doc", doc.toValue.toJson)]
  | replace id doc =>
    .object [("op", .string "replace"), ("id", id.toValue.toJson), ("doc", doc.toValue.toJson)]
  | remove id => .object [("op", .string "remove"), ("id", id.toValue.toJson)]

/-- The id that JSON stands for in a record. -/
def readId? : Json → Option DocumentId
  | .string s => some (.string s)
  | .number n => n.toInt64?.map DocumentId.int
  | _ => none

/-- The document that JSON stands for in a record. -/
def readDocument? (j : Json) : Option Document := Document.ofStored? (Value.ofJson j)

/-- The record of a name and fields; other fields do not count. -/
def ofFields? (op : String) (fields : Fields Json) : Option JournalRecord :=
  match op with
  | "insert" => do return insert (← readDocument? (← Fields.get? fields "doc"))
  | "replace" => do
    let id ← readId? (← Fields.get? fields "id")
    return replace id (← readDocument? (← Fields.get? fields "doc"))
  | "remove" => do return remove (← readId? (← Fields.get? fields "id"))
  | _ => none

/-- The names of the fields of a record in their order. -/
def fieldNames : String → List String
  | "replace" => ["id", "doc"]
  | "remove" => ["id"]
  | _ => ["doc"]

/-- Whether the name of a record and its fields are given no more than once. -/
def isUnambiguous (op : String) (fields : List (String × Json)) : Bool :=
  ("op" :: fieldNames op).all fun name => (Fields.keys fields).count name ≤ 1

/-- The record that JSON stands for as it is written: an object, or an array of the name and all
fields. -/
def ofJson? : Json → Option JournalRecord
  | .object fields => do
    let op ← (← Fields.get? fields "op").string?
    if isUnambiguous op fields then ofFields? op (Json.mergedFields fields) else none
  | .array (.string op :: items) =>
    if items.length = (fieldNames op).length
      then ofFields? op ((fieldNames op).zip (Json.mergedItems items))
    else none
  | _ => none

/-! ## Lines -/

/-- The bytes of a text. -/
def utf8 (text : String) : Bytes := text.toUTF8.data.toList

/-- The text of bytes, if they are one. -/
def ofUtf8? (bytes : Bytes) : Option String := String.fromUTF8? ⟨bytes.toArray⟩

/-- A checksum in eight hexadecimal digits. -/
def hexText (checksum : UInt32) : String :=
  let digits := Nat.toDigits 16 checksum.toNat
  String.ofList (List.replicate (8 - digits.length) '0' ++ digits)

/-- The number of a hexadecimal digit. -/
def hexDigit? (c : Char) : Option Nat :=
  if '0' ≤ c ∧ c ≤ '9' then some (c.toNat - '0'.toNat)
  else if 'a' ≤ c ∧ c ≤ 'f' then some (c.toNat - 'a'.toNat + 10)
  else if 'A' ≤ c ∧ c ≤ 'F' then some (c.toNat - 'A'.toNat + 10)
  else none

/-- The checksum of a text: hexadecimal digits of a number below 2^32, which may bear a plus
sign. -/
def hexValue? (cs : List Char) : Option UInt32 := do
  let digits ← (match cs with
    | '+' :: ds => ds
    | ds => ds).mapM hexDigit?
  guard (!digits.isEmpty)
  let n := digits.foldl (fun n d => n * 16 + d) 0
  if n < UInt32.size then some (UInt32.ofNat n) else none

/-- The line of a record, with its line feed. -/
def toLine (r : JournalRecord) : String :=
  let json := r.toJson.render
  hexText (Crc32.checksum (utf8 json)) ++ " " ++ json ++ "\n"

/-- The record of a line without its line feed. -/
def ofLine (line : String) : Except LineFault JournalRecord :=
  let cs := line.toList
  match cs.dropWhile (· != ' ') with
  | [] => .error .noSeparator
  | _ :: text =>
    let json := String.ofList text
    match hexValue? (cs.takeWhile (· != ' ')) with
    | none => .error .malformedChecksum
    | some expected =>
      if Crc32.checksum (utf8 json) = expected then
        match (Json.written? json).bind ofJson? with
        | some r => .ok r
        | none => .error .unreadableRecord
      else .error .wrongChecksum

end JournalRecord

end DocStore
