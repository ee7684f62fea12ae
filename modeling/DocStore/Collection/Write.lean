import DocStore.Collection.Action
import DocStore.Update

/-!
# Writing to collections

Inserting, updating and deleting documents. All that can be refused is computed before the first
write, but for a batch in order, which keeps the documents before the one that fails.
-/

set_option autoImplicit false

namespace DocStore

/-- What an update came to. -/
structure UpdateOutcome where
  matched : Nat
  modified : Nat
  /-- The id of the document that was inserted because none matched. -/
  upserted : Option DocumentId

namespace Collection

open DocStore.Action

/-! ## Inserting -/

/-- Inserts one document. -/
def insertOne (v : Value) : Action DocumentId := do
  let doc ← prepare (← current).ids v
  commit doc
  logAbout .debug "insert_one into" (": _id " ++ doc.id.display)
  return doc.id

/-- Inserts documents until one fails, those at the front having been inserted already. -/
def insertEach (inserted : List DocumentId) : List Value → Action (List DocumentId)
  | [] => return inserted
  | v :: rest => do
    let next : Action DocumentId := do
      let doc ← prepare (← current).ids v
      commit doc
      return doc.id
    match ← attempt next with
    | .ok id => insertEach (inserted ++ [id]) rest
    | .error e =>
      let count := inserted.length
      logAbout .debug "insert_many into" s!" stopped at {count} after {count} inserts"
      throw (.batch inserted count e)

/-- Prepares documents beside others, from the one with the given index on. -/
def stageEach (taken : List DocumentId) (index : Nat) : List Value → Action (List Document)
  | [] => return []
  | v :: rest => do
    match ← attempt (prepare taken v) with
    | .ok doc => do
      let docs ← stageEach (doc.id :: taken) (index + 1) rest
      return doc :: docs
    | .error e => throw (.batch [] index e)

/-- Inserts a batch of documents: those before the first that fails, or all or none. -/
def insertMany (vs : List Value) : Action (List DocumentId) := do
  let ids ← match (← current).options.policy with
    | .ordered => insertEach [] vs
    | .atomic => do
      let docs ← stageEach (← current).ids 0 vs
      docs.forM commit
      pure (docs.map (·.id))
  logAbout .debug "insert_many into" s!": {ids.length} documents"
  return ids

/-! ## Updating -/

/-- The updated version of a document, or none if the update changes nothing. -/
def stageUpdate (u : Update) (doc : Document) : Action (Option Document) := do
  let (fields, effect) ← ofResult (u.apply doc.fields)
  if effect.modified then
    let updated := Document.make doc.id fields
    check updated (some effect.touched)
    return some updated
  else return none

/-- Inserts the document that an update makes of what a filter demands. -/
def upsert (f : Filter) (u : Update) : Action UpdateOutcome := do
  let fields ← ofResult (u.newFields f)
  let doc ← prepare (← current).ids (.object fields)
  commit doc
  logAbout .debug "update_one on" (": upserted _id " ++ doc.id.display)
  return { matched := 0, modified := 0, upserted := some doc.id }

/-- The position of the first document that passes a filter. -/
def position? (c : Collection) (f : Filter) : Option Nat :=
  c.documents.findIdx? fun d => f.holds d.fields

/-- Updates the document at a position. -/
def updateAt (u : Update) (position : Nat) (doc : Document) : Action UpdateOutcome := do
  match ← stageUpdate u doc with
  | none =>
    logAbout .trace "update_one on" (": _id " ++ doc.id.display ++ " unchanged")
    return { matched := 1, modified := 0, upserted := none }
  | some updated =>
    logAbout .debug "update_one on" (": _id " ++ updated.id.display)
    replaceAt position updated
    return { matched := 1, modified := 1, upserted := none }

/-- Updates the first document that passes a filter. If there is none, a new one is inserted if
asked for. -/
def updateOne (f : Filter) (u : Update) (orInsert : Bool) : Action UpdateOutcome := do
  let c ← current
  match c.position? f with
  | some position => do
    let doc ← ofResult (c.storage.at? position)
    updateAt u position doc
  | none =>
    if orInsert then upsert f u else return { matched := 0, modified := 0, upserted := none }

/-- The documents that pass a filter, with their positions. -/
def matching (c : Collection) (f : Filter) : List (Document × Nat) :=
  c.documents.zipIdx.filter fun e => f.holds e.1.fields

/-- The updated versions of documents that an update changes, with their positions. -/
def stageUpdates (u : Update) : List (Document × Nat) → Action (List (Document × Nat))
  | [] => return []
  | (doc, position) :: rest => do
    let updated ← stageUpdate u doc
    let more ← stageUpdates u rest
    return (updated.map (·, position)).toList ++ more

/-- Updates all documents that pass a filter, or none if one of the new versions is refused. -/
def updateMany (f : Filter) (u : Update) : Action UpdateOutcome := do
  let found := (← current).matching f
  let staged ← stageUpdates u found
  staged.forM fun e => replaceAt e.2 e.1
  logAbout .debug "update_many on" s!": matched {found.length}, modified {staged.length}"
  return { matched := found.length, modified := staged.length, upserted := none }

/-! ## Deleting -/

/-- Deletes the first document that passes a filter, and gives the number of deleted documents. -/
def deleteOne (f : Filter) : Action Nat := do
  match (← current).position? f with
  | none => return 0
  | some position =>
    let doc ← removeAt position
    logAbout .debug "delete_one on" (": _id " ++ doc.id.display)
    return 1

/-- Deletes all documents that pass a filter, the last one first, and gives their number. -/
def deleteMany (f : Filter) : Action Nat := do
  let positions := ((← current).matching f).map (·.2)
  positions.reverse.forM fun position => discard (removeAt position)
  logAbout .debug "delete_many on" s!": {positions.length} documents"
  return positions.length

/-! ## The journal -/

/-- Brings the journal to disk, if there is one. -/
def flush : Action Unit := do
  let (storage, notes) := (← current).storage.flush
  keepStorage storage notes

/-- Writes the journal anew with one record for each document, if there is one. -/
def compact : Action (Option CompactionStats) := do
  match (← current).storage.compact? with
  | none => return none
  | some (stats, storage, notes) =>
    keepStorage storage notes
    logAbout .debug "compacted" s!": {stats.sizeBefore} -> {stats.sizeAfter} bytes"
    return some stats

end Collection

end DocStore
