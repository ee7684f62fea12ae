import DocStore.Document.Basic

/-!
# Ids and documents

Two ids are the same key iff they are stored as the same value, so being the same key is an
equivalence, and looking for an id in a list is looking for its value. A document that was made of
an id and fields has the value of the id in its first field.
-/

set_option autoImplicit false

namespace DocStore

namespace DocumentId

/-! ## Keys -/

theorem same_iff {a b : DocumentId} : a.same b = true ↔ a.toValue = b.toValue := by
  cases a <;> cases b <;> simp [same, toValue, text?]

theorem same_refl (a : DocumentId) : a.same a = true := same_iff.2 rfl

theorem same_comm (a b : DocumentId) : a.same b = b.same a := by
  rw [Bool.eq_iff_iff, same_iff, same_iff]
  exact eq_comm

theorem same_trans {a b c : DocumentId} (hab : a.same b = true) (hbc : b.same c = true) :
    a.same c = true :=
  same_iff.2 ((same_iff.1 hab).trans (same_iff.1 hbc))

/-- Ids of one key are the same as the same ids. -/
theorem same_congr {a b : DocumentId} (h : a.same b = true) : same a = same b := by
  funext c
  rw [Bool.eq_iff_iff, same_iff, same_iff, same_iff.1 h]

/-! ## Lists of ids -/

theorem isIn_iff {id : DocumentId} {ids : List DocumentId} :
    id.isIn ids = true ↔ ∃ other ∈ ids, id.same other = true := List.any_eq_true

@[simp] theorem isIn_nil (id : DocumentId) : id.isIn [] = false := rfl

@[simp] theorem isIn_cons (id other : DocumentId) (ids : List DocumentId) :
    id.isIn (other :: ids) = (id.same other || id.isIn ids) := rfl

@[simp] theorem isIn_append (id : DocumentId) (ids others : List DocumentId) :
    id.isIn (ids ++ others) = (id.isIn ids || id.isIn others) := List.any_append

theorem isIn_congr {a b : DocumentId} (h : a.same b = true) (ids : List DocumentId) :
    a.isIn ids = b.isIn ids := by
  rw [isIn, same_congr h, isIn]

/-- Removing an id leaves the other keys. -/
theorem isIn_remove (id other : DocumentId) (ids : List DocumentId) :
    id.isIn (other.remove ids) = (!other.same id && id.isIn ids) := by
  induction ids with
  | nil => simp [remove]
  | cons a ids ih =>
      have hcons : other.remove (a :: ids) =
          if other.same a then other.remove ids else a :: other.remove ids := by
        by_cases ha : other.same a <;> simp [remove, ha]
      rw [hcons, isIn_cons]
      by_cases ha : other.same a
      · rw [if_pos ha, ih, same_congr ha, same_comm a id]
        cases id.same a <;> simp
      · rw [if_neg ha, isIn_cons, ih]
        by_cases hi : id.same a
        · have ho : other.same id = false := by
            rw [Bool.eq_false_iff]
            exact fun ho => ha (same_trans ho hi)
          simp [hi, ho]
        · simp [hi]

/-- Of pairwise different ids, taking one away leaves the other keys. -/
theorem isIn_eraseIdx {ids : List DocumentId} (hdistinct : ids.Pairwise fun a b => a.same b = false)
    {position : Nat} {other : DocumentId} (h : ids[position]? = some other) (id : DocumentId) :
    id.isIn (ids.eraseIdx position) = (!other.same id && id.isIn ids) := by
  induction ids generalizing position with
  | nil => cases h
  | cons a ids ih =>
      obtain ⟨ha, hdistinct⟩ := List.pairwise_cons.1 hdistinct
      cases position with
      | zero =>
          cases h
          rw [List.eraseIdx_cons_zero, isIn_cons, same_comm id other]
          by_cases hi : other.same id = true
          · have hnot : id.isIn ids = false := by
              rw [← isIn_congr hi, Bool.eq_false_iff]
              intro hin
              obtain ⟨b, hb, hsame⟩ := isIn_iff.1 hin
              rw [ha b hb] at hsame
              cases hsame
            simp [hi, hnot]
          · simp [hi]
      | succ position =>
          rw [List.getElem?_cons_succ] at h
          rw [List.eraseIdx_cons_succ, isIn_cons, isIn_cons, ih hdistinct h]
          by_cases hi : id.same a = true
          · have ho : other.same id = false := by
              rw [Bool.eq_false_iff]
              intro ho
              have hsame := ha other (List.mem_of_getElem? h)
              rw [same_comm a other, same_trans ho hi] at hsame
              cases hsame
            simp [hi, ho]
          · simp [hi]

end DocumentId

namespace Document

/-! ## Made documents -/

/-- The first field of a document holds its id. -/
def IdFirst (d : Document) : Prop := d.fields.head? = some (idField, d.id.toValue)

theorem idFirst_make (id : DocumentId) (fields : Fields Value) : (make id fields).IdFirst := rfl

theorem IdFirst.get? {d : Document} (h : d.IdFirst) :
    Fields.get? d.fields idField = some d.id.toValue := by
  unfold IdFirst at h
  cases hf : d.fields with
  | nil => simp [hf] at h
  | cons e rest =>
      rw [hf, List.head?_cons, Option.some.injEq] at h
      subst h
      simp [Fields.get?]

theorem ofValue_made {v : Value} {ids : IdSource} {d : Document}
    (h : (ofValue v ids).1 = .ok d) : ∃ id fields, d = make id fields := by
  cases v with
  | object fields =>
      unfold ofValue ofFields at h
      cases hraw : Fields.get? fields idField with
      | none =>
          simp only [hraw] at h
          cases h
          exact ⟨_, _, rfl⟩
      | some raw =>
          simp only [hraw] at h
          cases hid : DocumentId.ofValue raw with
          | error e => simp [hid, Except.map] at h
          | ok id =>
              rw [hid] at h
              cases h
              exact ⟨id, fields, rfl⟩
  | _ => cases h

/-- Documents that were made of an id and fields, or of a value. -/
inductive Built : Document → Prop
  | make (id : DocumentId) (fields : Fields Value) : Built (make id fields)
  | ofValue {v : Value} {ids : IdSource} {d : Document} (h : (ofValue v ids).1 = .ok d) : Built d

theorem Built.idFirst {d : Document} (h : Built d) : d.IdFirst := by
  cases h with
  | make id fields => exact idFirst_make id fields
  | ofValue h =>
      obtain ⟨id, fields, rfl⟩ := ofValue_made h
      exact idFirst_make id fields

/-! ## Batches -/

/-- The documents that values stand for, in order, each drawing its id after those before it. -/
def ofValues : List Value → IdSource → Result (List Document × IdSource)
  | [], ids => .ok ([], ids)
  | v :: rest, ids =>
    (ofValue v ids).1.bind fun doc =>
      (ofValues rest (ofValue v ids).2).map fun (docs, ids) => (doc :: docs, ids)

end Document

end DocStore
