import DocStore.Pipeline.Names
import DocStore.Pipeline.Run
import DocStore.Value.Edit

/-!
# Unwinding

The stage `$unwind` gives a document once for each item of an array in it, with the item in the
place of the array.
-/

set_option autoImplicit false

namespace DocStore

/-- What an `$unwind` stage does. -/
structure UnwindStage where
  path : String
  /-- Whether documents without items pass as they are. -/
  keepEmpty : Bool

namespace UnwindStage

/-- The document with a value at a path; what is no object is left as it is. -/
def place (path : String) (doc item : Value) : Result Value :=
  match doc with
  | .object fields => (Fields.setPath? fields path item).map Value.object
  | v => .ok v

/-- What becomes of a document. A value that is no array passes as it is. -/
def unwind (s : UnwindStage) (doc : Value) : List (Result Value) :=
  let whole := if s.keepEmpty then [.ok doc] else []
  match doc.getPath? s.path with
  | none => whole
  | some .null => whole
  | some (.array []) => whole
  | some (.array items) => items.map (place s.path doc)
  | some _ => [.ok doc]

/-- Runs the stage at a position of a pipeline. -/
def run (s : UnwindStage) (index : Nat) (docs : List Value) : Run (List Value) :=
  Run.keepAll index "$unwind" (docs.flatMap s.unwind)

variable {m : Type → Type} [Reading m]

/-- The path of a reference to a field. -/
def reference? (text : String) : Option String :=
  match text.toList with
  | '$' :: cs =>
    let path := String.ofList cs
    if Segments.isPath path then some path else none
  | _ => none

/-- Reads the path of the array, with whether documents without items pass. -/
def readOptions : Json → m (String × Bool)
  | .string text => pure (text, false)
  | .object fields =>
    match fields.find? fun e => e.1 != "path" && e.1 != "preserveNullAndEmptyArrays" with
    | some (key, _) => StageFault.fail (.extraKey "$unwind" key)
    | none => do
      let text ← StageFault.require ((Fields.get? fields "path").bind Json.string?) .unwindPathKind
      match Fields.get? fields "preserveNullAndEmptyArrays" with
      | none => return (text, false)
      | some j => return (text, ← StageFault.require j.bool? .unwindPreserve)
  | _ => StageFault.fail .unwindShape

/-- Reads an `$unwind` stage. -/
def read (j : Json) : m UnwindStage := do
  let (text, keepEmpty) ← readOptions j
  let path ← StageFault.require (reference? text) (.unwindPath text)
  return { path, keepEmpty }

end UnwindStage

end DocStore
