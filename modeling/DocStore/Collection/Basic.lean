import DocStore.Collection.Options
import DocStore.Schema.Basic
import DocStore.Storage.Basic

/-!
# Collections

A collection is a storage of documents with pairwise different ids. It keeps the set of these ids
beside the documents, checks new documents against its schema, and draws ids for those that come
without one.
-/

set_option autoImplicit false

namespace DocStore

/-- A named collection of documents. -/
structure Collection where
  name : String
  storage : Storage
  /-- The ids of the stored documents. -/
  ids : List DocumentId
  schema : Option Schema
  options : CollectionOptions
  /-- Where the ids of documents that come without one are drawn. -/
  source : IdSource

namespace Collection

/-- The documents in order. -/
def documents (c : Collection) : List Document := c.storage.documents

/-- A collection without documents that lives in memory only. -/
def empty (name : String) (schema : Option Schema) (options : CollectionOptions)
    (source : IdSource) : Collection :=
  { name, storage := .inMemory [], ids := [], schema, options, source }

/-- The ids of documents, added to others, or the first one that is there already. -/
def gatherIds (ids : List DocumentId) : List Document → Except DocumentId (List DocumentId)
  | [] => .ok ids
  | d :: rest => if d.id.isIn ids then .error d.id else gatherIds (d.id :: ids) rest

/-- A collection over a storage. Documents that are stored already are not checked against the
schema, but their ids must differ. -/
def ofStorage (name : String) (storage : Storage) (schema : Option Schema)
    (options : CollectionOptions) (source : IdSource) : Result (Collection × List LogEntry) :=
  match gatherIds [] storage.documents with
  | .error id => .error (.corruption (.repeatedId name id.display))
  | .ok ids =>
    let note : LogEntry := {
      level := .debug
      message := "collection '" ++ name ++ s!"' opened with {ids.length} documents" }
    .ok ({ name, storage, ids, schema, options, source }, [note])

/-- The verdict of the schema on a document. At the relaxed level only the top-level fields that an
update touched are checked. -/
def verdict (c : Collection) (doc : Document) (touched : Option (List String)) : Verdict :=
  match c.schema with
  | none => .ok ()
  | some schema =>
    match touched, c.options.level with
    | some names, .relaxed => schema.validateFields names doc.toValue
    | _, _ => schema.validate doc.toValue

end Collection

end DocStore
