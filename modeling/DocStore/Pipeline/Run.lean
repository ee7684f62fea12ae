import DocStore.Error.Basic
import DocStore.LogLevel

/-!
# Runs of stages

A run gives a result or an error, with the failures of single documents that it recorded on the way
and the messages that it logged. Failures concern documents that were dropped; the run goes on
after them.
-/

set_option autoImplicit false

namespace DocStore

/-- The failure of a document in a stage of a pipeline. -/
structure StageFailure where
  /-- The position of the stage in the pipeline. -/
  index : Nat
  /-- The name of the stage, behind the name of its part if it stands in a part of another. -/
  stage : String
  error : Error

/-- What running a stage or a pipeline gave. -/
structure Run (α : Type) where
  result : Result α
  failures : List StageFailure
  notes : List LogEntry

namespace Run

variable {α β : Type}

/-- The run that gives a value at once. -/
def ok (a : α) : Run α := { result := .ok a, failures := [], notes := [] }

/-- The run that ends in an error at once. -/
def fail (e : Error) : Run α := { result := .error e, failures := [], notes := [] }

/-- Goes on with the value of a run, unless it ended in an error. -/
def andThen (r : Run α) (next : α → Run β) : Run β :=
  match r.result with
  | .error e => { result := .error e, failures := r.failures, notes := r.notes }
  | .ok a =>
    let s := next a
    { result := s.result, failures := r.failures ++ s.failures, notes := r.notes ++ s.notes }

instance : Monad Run where
  pure := ok
  bind := andThen

/-- Logs a message. -/
def note (level : LogLevel) (message : String) : Run Unit :=
  { result := .ok (), failures := [], notes := [{ level, message }] }

/-- Records that a stage drops a document. -/
def drop (index : Nat) (stage : String) (error : Error) : Run Unit :=
  { result := .ok ()
    failures := [{ index, stage, error }]
    notes := [{ level := .trace, message := stage ++ " dropped a document: " ++ error.message }] }

/-- Keeps what single documents gave. An error that concerns its document only is recorded, any
other one ends the run. -/
def keepAll (index : Nat) (stage : String) : List (Result α) → Run (List α)
  | [] => ok []
  | .ok a :: rest => do
    let more ← keepAll index stage rest
    return a :: more
  | .error e :: rest =>
    if e.isDocumentLocal then do
      drop index stage e
      keepAll index stage rest
    else fail e

end Run

end DocStore
