import DocStore.Collection.Read
import DocStore.Collection.Write
import DocStore.Pipeline.Reader

/-!
# Calls on collections

A call is an operation with its arguments as they come from outside. Filters, updates and pipelines
are read first, with the cache of patterns that there is at the time; a call whose arguments are
malformed fails before the collection is looked at.
-/

set_option autoImplicit false

namespace DocStore

/-- An operation on a collection with its arguments. -/
inductive Call where
  | insertOne (doc : Json)
  | insertMany (docs : List Json)
  | find (filter : Json) (options : FindOptions)
  | findOne (filter : Json)
  | count (filter : Json)
  | updateOne (filter update : Json) (orInsert : Bool)
  | updateMany (filter update : Json)
  | deleteOne (filter : Json)
  | deleteMany (filter : Json)
  | aggregate (pipeline : Json)
  | flush
  | compact

namespace Call

/-- The values of a batch. -/
def values (docs : List Json) : List Value := docs.map Value.ofJson

/-- Reads the arguments of a call: the action that is to be run. -/
def read : Call → CachedReading (Action Unit)
  | insertOne doc => return discard (Collection.insertOne (Value.ofJson doc))
  | insertMany docs => return discard (Collection.insertMany (values docs))
  | find filter options => do return discard (Collection.find (← Filter.read filter) options)
  | findOne filter => do return discard (Collection.findOne (← Filter.read filter))
  | count filter => do return discard (Collection.count (← Filter.read filter))
  | updateOne filter update orInsert => do
    let f ← Filter.read filter
    let u ← Reading.ofResult (Update.ofJson update)
    return discard (Collection.updateOne f u orInsert)
  | updateMany filter update => do
    let f ← Filter.read filter
    let u ← Reading.ofResult (Update.ofJson update)
    return discard (Collection.updateMany f u)
  | deleteOne filter => do return discard (Collection.deleteOne (← Filter.read filter))
  | deleteMany filter => do return discard (Collection.deleteMany (← Filter.read filter))
  | aggregate pipeline => do
    return discard (Collection.aggregate (← Pipeline.read pipeline))
  | flush => return Collection.flush
  | compact => return discard Collection.compact

/-- Makes a call on a collection: whether it succeeds or fails, and the collection afterwards. -/
def run (call : Call) (cache : PatternCache) (c : Collection) : Result Unit × Collection :=
  match (call.read.run.run cache).1 with
  | .error e => (.error e, c)
  | .ok action =>
    let (result, session) := Action.runOn c action
    (result, session.collection)

/-- Makes calls one after another, each with the cache that it finds, whether those before it
succeed or fail. -/
def runAll (c : Collection) (calls : List (Call × PatternCache)) : Collection :=
  calls.foldl (fun c e => (e.1.run e.2 c).2) c

end Call

end DocStore
