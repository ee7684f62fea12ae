import DocStore.Collection.Read
import DocStore.Pipeline.Reader

/-!
# Requests

A request is an operation on a collection whose arguments have yet to be read. It is answered by
reading them, with the cache of patterns that there is at the time, and running the operation.
-/

set_option autoImplicit false

namespace DocStore.Request

/-- A search. -/
def find (filter : Json) (options : FindOptions) : CachedReading (Action (List Value)) := do
  return Collection.find (← Filter.read filter) options

/-- A run of a pipeline. -/
def aggregate (pipeline : Json) :
    CachedReading (Action (List Value × List StageFailure)) := do
  return Collection.aggregate (← Pipeline.read pipeline)

/-- What a request gives. -/
def answer {α : Type} (request : CachedReading (Action α)) (cache : PatternCache)
    (c : Collection) : Result α :=
  match (request.run.run cache).1 with
  | .error e => .error e
  | .ok action => (Action.outcome c action).1

end DocStore.Request
