import DocStore.Storage.Basic

/-!
# Operations on storages

The operations on a storage with their arguments, so that runs of them can be spoken of. Closing a
storage and opening it again is one of them.
-/

set_option autoImplicit false

namespace DocStore

/-- An operation on a storage with its arguments. -/
inductive StorageOperation where
  | insert (doc : Document)
  | replace (position : Nat) (doc : Document)
  | remove (position : Nat)
  | flush
  | compact
  /-- The file is closed and opened again. What is in memory only stays as it is. -/
  | reopen (durability : Durability)

namespace Storage

/-- The storage after an operation. An operation at a position without a document changes nothing;
a file that cannot be opened leaves no storage. -/
def perform (s : Storage) : StorageOperation → Result Storage
  | .insert doc => .ok (s.insert doc).1
  | .replace position doc =>
    match s.replace position doc with
    | .ok (s, _) => .ok s
    | .error _ => .ok s
  | .remove position =>
    match s.remove position with
    | .ok (_, s, _) => .ok s
    | .error _ => .ok s
  | .flush => .ok s.flush.1
  | .compact =>
    match s.compact? with
    | some (_, s, _) => .ok s
    | none => .ok s
  | .reopen durability =>
    match s.journal with
    | none => .ok s
    | some j => (openFile j.path durability j.close.1).map (·.1)

theorem perform_replace (s : Storage) (position : Nat) (doc : Document) :
    s.perform (.replace position doc) = .ok (match s.documents[position]? with
      | some old => (s.change (.replace old.id doc) (s.documents.set position doc)).1
      | none => s) := by
  rw [perform, replace, at?]
  cases s.documents[position]? <;> rfl

theorem perform_remove (s : Storage) (position : Nat) :
    s.perform (.remove position) = .ok (match s.documents[position]? with
      | some old => (s.change (.remove old.id) (s.documents.eraseIdx position)).1
      | none => s) := by
  rw [perform, remove, at?]
  cases s.documents[position]? <;> rfl

theorem perform_replace_inMemory (docs : List Document) (position : Nat) (doc : Document) :
    (inMemory docs).perform (.replace position doc) = .ok (inMemory (docs.set position doc)) := by
  rw [perform_replace, inMemory]
  cases h : docs[position]? with
  | some old => rfl
  | none =>
      rw [List.set_eq_of_length_le (List.getElem?_eq_none_iff.1 h)]
      rfl

theorem perform_remove_inMemory (docs : List Document) (position : Nat) :
    (inMemory docs).perform (.remove position) = .ok (inMemory (docs.eraseIdx position)) := by
  rw [perform_remove, inMemory]
  cases h : docs[position]? with
  | some old => rfl
  | none =>
      rw [List.eraseIdx_of_length_le (List.getElem?_eq_none_iff.1 h)]
      rfl

/-- The storage after operations one after another. -/
def performAll (s : Storage) : List StorageOperation → Result Storage
  | [] => .ok s
  | op :: rest => (s.perform op).bind fun s => performAll s rest

end Storage

end DocStore
