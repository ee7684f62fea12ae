import DocStore.Collection.Basic

/-!
# Actions on collections

An action works on a collection and logs messages. If it fails, what it did before stays done.
-/

set_option autoImplicit false

namespace DocStore

/-- A collection with the messages that were logged while working on it. -/
structure Session where
  collection : Collection
  notes : List LogEntry

/-- A computation that may change a collection, log messages and fail. -/
abbrev Action := ExceptT Error (StateM Session)

namespace Action

variable {α : Type}

/-- The collection as it is now. -/
def current : Action Collection := do return (← get).collection

/-- Changes the collection. -/
def change (f : Collection → Collection) : Action Unit :=
  modify fun s => { s with collection := f s.collection }

/-- Logs messages. -/
def logAll (notes : List LogEntry) : Action Unit :=
  modify fun s => { s with notes := s.notes ++ notes }

/-- Logs a message. -/
def log (level : LogLevel) (message : String) : Action Unit := logAll [{ level, message }]

/-- Logs a message about the collection: what was done, its name, and what came of it. -/
def logAbout (level : LogLevel) (what outcome : String) : Action Unit := do
  log level (what ++ " '" ++ (← current).name ++ "'" ++ outcome)

/-- Goes on with the value of a result, or fails with its error. -/
def ofResult : Result α → Action α
  | .ok a => pure a
  | .error e => throw e

/-- The result of an action, which does not fail itself. -/
def attempt (a : Action α) : Action (Result α) := ExceptT.lift a.run

/-- Takes over a changed storage. -/
def keepStorage (storage : Storage) (notes : List LogEntry) : Action Unit := do
  change fun c => { c with storage }
  logAll notes

/-- Runs an action on a collection. -/
def runOn (c : Collection) (a : Action α) : Result α × Session :=
  a.run.run { collection := c, notes := [] }

/-- What an action on a collection gives, and the collection afterwards. -/
def outcome (c : Collection) (a : Action α) : Result α × Collection :=
  ((runOn c a).1, (runOn c a).2.collection)

/-! ## Single documents -/

/-- Checks a document against the schema. What the schema refuses is an error or a warning. -/
def check (doc : Document) (touched : Option (List String)) : Action Unit := do
  let c ← current
  match c.verdict doc touched with
  | .ok () => return ()
  | .error e =>
    match c.options.action with
    | .error => throw (.validation e)
    | .warn =>
      log .warn ("collection '" ++ c.name ++ "': _id " ++ doc.id.display ++
        " fails validation, committed anyway: " ++ e.message)

/-- The document that a value stands for, with an id that is drawn if the value has none. -/
def toDocument (v : Value) : Action Document := do
  let (doc, source) := Document.ofValue v (← current).source
  change fun c => { c with source }
  ofResult doc

/-- A new document that may be inserted beside documents with the given ids. -/
def prepare (taken : List DocumentId) (v : Value) : Action Document := do
  let doc ← toDocument v
  if doc.id.isIn taken then throw (.duplicateId doc.id)
  check doc none
  return doc

/-- Appends a prepared document. -/
def commit (doc : Document) : Action Unit := do
  let (storage, notes) := (← current).storage.insert doc
  keepStorage storage notes
  change fun c => { c with ids := doc.id :: c.ids }

/-- Replaces the document at a position by one of the same id. -/
def replaceAt (position : Nat) (doc : Document) : Action Unit := do
  let (storage, notes) ← ofResult ((← current).storage.replace position doc)
  keepStorage storage notes

/-- Removes the document at a position, and gives it. -/
def removeAt (position : Nat) : Action Document := do
  let (doc, storage, notes) ← ofResult ((← current).storage.remove position)
  keepStorage storage notes
  change fun c => { c with ids := doc.id.remove c.ids }
  return doc

end Action

end DocStore
