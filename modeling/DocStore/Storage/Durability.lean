import DocStore.Json.Record

/-!
# Durability

When the records of a journal are brought to disk: after each, after a number of them, or on
request.
-/

set_option autoImplicit false

namespace DocStore

/-- When records are brought to disk. -/
inductive Durability where
  /-- After each record. -/
  | safe
  /-- After so many records. -/
  | batch (size : Nat)
  /-- On request. -/
  | manual
deriving DecidableEq, Repr

namespace Durability

/-- Whether records are brought to disk without being asked for. -/
def isAutomatic (d : Durability) : Bool := d != manual

/-- Whether each record is on disk before the operation that wrote it ends. -/
def isSafe (d : Durability) : Bool := d == safe

/-- The number of records in a batch. -/
def batchSize? : Durability → Option Nat
  | batch size => some size
  | _ => none

/-- Whether it is time to bring a number of pending records to disk. -/
def isDue (pending : Nat) : Durability → Bool
  | safe => 0 < pending
  | batch size => max size 1 ≤ pending
  | manual => false

/-- The durability that JSON stands for. -/
def ofJson? : Json → Option Durability
  | .object [("Batch", j)] => do
    let given ← Json.Record.settings? ["batch_size"] j
    return batch (← (← Fields.get? given "batch_size").toUInt64?)
  | j => Json.Record.choice? [("Safe", safe), ("Manual", manual)] j

/-- The durability as JSON. -/
def toJson : Durability → Json
  | safe => .string "Safe"
  | batch size => .object [("Batch", .object [("batch_size", .ofInt size)])]
  | manual => .string "Manual"

end Durability

end DocStore
