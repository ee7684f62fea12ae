import DocStore.Collection.Action
import DocStore.Pipeline.Basic

/-!
# Searching collections

Searches look at all documents in order.
-/

set_option autoImplicit false

namespace DocStore.Collection

open DocStore.Action

/-- The documents that pass a filter. -/
def found (c : Collection) (f : Filter) : List Document :=
  c.documents.filter fun d => f.holds d.fields

/-- Sorts, cuts and projects what was found. -/
def arrange (keys : List SortKey) (projection : Option Projection) (o : FindOptions)
    (docs : List Value) : List Value :=
  let page := FindOptions.page o.limit o.skip (SortKey.sort keys docs)
  match projection with
  | none => page
  | some p => page.map p.apply

/-- The documents that pass a filter, sorted, cut and projected as the options say. A search that
is given no time at all ends at the first document. -/
def find (f : Filter) (o : FindOptions) : Action (List Value) := do
  let keys ← ofResult o.sortKeys
  let projection ← ofResult o.parsedProjection
  if let some hint := o.hint then
    logAbout .debug "find on" (": hint '" ++ hint ++ "' is advisory, scanning")
  let c ← current
  if o.maxTime == some 0 && !c.documents.isEmpty then
    logAbout .debug "find on" " timed out after 0 matches"
    throw .timeout
  let docs := (c.found f).map Document.toValue
  logAbout .trace "find on" s!": {docs.length} matches"
  return arrange keys projection o docs

/-- The first document that passes a filter. -/
def findOne (f : Filter) : Action (Option Document) := do
  return (← current).documents.find? fun d => f.holds d.fields

/-- The number of documents that pass a filter. -/
def count (f : Filter) : Action Nat := do return ((← current).found f).length

/-- Runs a pipeline on the documents, and gives what comes out with the recorded failures. -/
def aggregate (p : Pipeline) : Action (List Value × List StageFailure) := do
  let docs := (← current).documents.map Document.toValue
  logAbout .debug "aggregate on" s!": {p.length} stages over {docs.length} documents"
  let run := p.run docs
  logAll run.notes
  let out ← ofResult run.result
  if !run.failures.isEmpty then
    logAbout .debug "aggregate on" s!": {run.failures.length} documents dropped by stage failures"
  return (out, run.failures)

end DocStore.Collection
