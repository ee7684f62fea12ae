import DocStore.Proofs.Error
import DocStore.Proofs.Value.Edit

/-!
# What stops a write

A write at a path is stopped by a value that has no fields or items to write, or by an index that
lies too far beyond the end of an array: `Fields.failsLocallyOr_setPath?`. Where the path already
leads somewhere, nothing stops it: `Fields.exists_setPath?`.
-/

set_option autoImplicit false

namespace DocStore

namespace Value

variable {path : String}

/-! ## Slots -/

theorem failsLocallyOr_slot (path : String) {segment : String} {segments : List String}
    (h : segment ∈ segments) (items : List Value) :
    FailsLocallyOr (·.BeyondEnd path segments) (slot path segment items) := by
  unfold slot
  split
  · exact failsOnly_error (.inl rfl)
  · rename_i i hindex
    split
    · rename_i hfar
      exact failsOnly_error (.inr ⟨segment, h, i, items.length, hindex, hfar, rfl⟩)
    · exact failsOnly_ok i

/-- An array is long enough for an index within it. -/
theorem padTo_of_lt {items : List Value} {i : Nat} (h : i < items.length) :
    padTo i items = items := by
  have hnone : i + 1 - items.length = 0 := by omega
  rw [padTo, hnone, List.replicate_zero, List.append_nil]

/-- An index within an array can be written, and nothing is added in front of it. -/
theorem slot_of_lt (path : String) {segment : String} {items : List Value} {i : Nat}
    (hindex : Segments.index? segment = some i) (h : i < items.length) :
    slot path segment items = .ok i ∧ padTo i items = items := by
  refine ⟨?_, padTo_of_lt h⟩
  rw [slot, hindex]
  exact if_neg (by omega)

/-! ## Writing -/

/-- **The errors of a write.** -/
theorem error_of_write {v : Value} {e : Error} {segments : List String} {old : Value}
    (h : (write path v segments old).2 = some e) :
    e.isDocumentLocal = true ∨ e.BeyondEnd path segments := by
  induction segments generalizing old with
  | nil => cases h
  | cons segment rest ih =>
      have hbelow {w : Value} (h : (write path v rest w).2 = some e) :
          e.isDocumentLocal = true ∨ e.BeyondEnd path (segment :: rest) := by
        refine (ih h).imp_right ?_
        rintro ⟨s, hs, hfar⟩
        exact ⟨s, List.mem_cons_of_mem _ hs, hfar⟩
      cases old with
      | object fields =>
          cases rest with
          | nil => cases h
          | cons next rest => exact hbelow h
      | array items =>
          have hself : segment ∈ segment :: rest := List.mem_cons_self
          have hslot := failsLocallyOr_slot path hself items
          cases rest with
          | nil =>
              rw [write] at h
              split at h
              · rename_i hstop
                cases h
                exact hslot _ hstop
              · cases h
          | cons next rest =>
              rw [write] at h
              · split at h
                · rename_i hstop
                  cases h
                  exact hslot _ hstop
                · exact hbelow h
              · exact List.cons_ne_nil _ _
      | _ =>
          cases rest <;>
          · cases h
            exact .inl rfl

/-- The first segment of a path into an object names a field. -/
theorem error_of_write_object {v : Value} {e : Error} {segment : String} {rest : List String}
    {m : Fields Value} (h : (write path v (segment :: rest) (object m)).2 = some e) :
    e.isDocumentLocal = true ∨ e.BeyondEnd path rest := by
  cases rest with
  | nil => cases h
  | cons next rest => exact error_of_write h

/-- Nothing stops a write where the path already leads somewhere. -/
theorem write_of_descend? (v : Value) {segments : List String} {old w : Value}
    (h : descend? segments old = some w) : (write path v segments old).2 = none := by
  induction segments generalizing old with
  | nil => rfl
  | cons segment rest ih =>
      obtain ⟨child, hchild, hrest⟩ := Option.bind_eq_some_iff.1 h
      cases old with
      | object fields =>
          have hget : Fields.get? fields segment = some child := hchild
          cases rest with
          | nil => rfl
          | cons next rest =>
              have hwrite := ih hrest
              rw [write, hget]
              · exact hwrite
              · exact List.cons_ne_nil _ _
      | array items =>
          obtain ⟨i, hindex, hi⟩ := Option.bind_eq_some_iff.1 hchild
          obtain ⟨hslot, hpad⟩ := slot_of_lt path hindex (List.getElem?_eq_some_iff.1 hi).1
          cases rest with
          | nil => rw [write, hslot]
          | cons next rest =>
              rw [write, hslot]
              · dsimp only
                rw [hpad, hi]
                cases child with
                | null => cases hrest
                | _ => exact ih hrest
              · exact List.cons_ne_nil _ _
      | _ => cases hchild

end Value

/-! ## Writing at a path of an object -/

namespace Fields

variable {m : Fields Value} {path : String} {v : Value}

theorem setPath?_eq {fields : Fields Value} {e : Option Error}
    (h : Value.write path v (Segments.ofPath path) (.object m) = (.object fields, e)) :
    setPath? m path v = e.elim (.ok fields) .error := by
  unfold setPath? setPath
  rw [h]
  cases e <;> rfl

/-- A write at a path goes through the object that it begins in. -/
theorem setPath?_cases (m : Fields Value) (path : String) (v : Value) :
    ∃ fields e, Value.write path v (Segments.ofPath path) (.object m) = (.object fields, e) ∧
      setPath? m path v = e.elim (.ok fields) .error := by
  obtain ⟨rest, hrest⟩ := ofPath_eq_top_cons path
  obtain ⟨w, e, hwrite⟩ := Value.write_object path v (Segments.top path) rest m
  rw [← hrest] at hwrite
  exact ⟨_, e, hwrite, setPath?_eq hwrite⟩

/-- **What stops a write at a path**: a value of the wrong kind, or an index below the top of the
path. -/
theorem failsLocallyOr_setPath? (m : Fields Value) (path : String) (v : Value) :
    FailsLocallyOr (·.BeyondEnd path (Segments.ofPath path).tail) (setPath? m path v) := by
  obtain ⟨fields, e, hwrite, hset⟩ := setPath?_cases m path v
  rw [hset]
  cases e with
  | none => exact failsOnly_ok fields
  | some e =>
      obtain ⟨rest, hrest⟩ := ofPath_eq_top_cons path
      rw [hrest] at hwrite ⊢
      exact failsOnly_error (Value.error_of_write_object (congrArg Prod.snd hwrite))

/-- **A path that leads somewhere can be written.** -/
theorem exists_setPath? {w : Value} (h : Value.getPath? (.object m) path = some w) (v : Value) :
    ∃ m', setPath? m path v = .ok m' := by
  obtain ⟨fields, e, hwrite, hset⟩ := setPath?_cases m path v
  have hnone : (Value.write path v (Segments.ofPath path) (.object m)).2 = none :=
    Value.write_of_descend? v h
  rw [hwrite] at hnone
  obtain rfl : e = none := hnone
  exact ⟨fields, hset⟩

end Fields

end DocStore
