import DocStore.Proofs.Collection.Call
import DocStore.Proofs.Schema.Accept
import DocStore.Proofs.Update.Frame

/-!
# Validity of documents

A collection whose schema is enforced never holds a document that the schema refuses, at both
levels: after an update the relaxed level checks only the fields that the update names, and the
others are those of a document that was accepted.
-/

set_option autoImplicit false

namespace DocStore

namespace Document

theorem get?_make_id (id : DocumentId) (fields : Fields Value) :
    Fields.get? (make id fields).fields idField = some id.toValue := by
  simp [make, Fields.get?]

theorem get?_make_of_ne (id : DocumentId) (fields : Fields Value) {name : String}
    (h : name ≠ idField) : Fields.get? (make id fields).fields name = Fields.get? fields name := by
  simp only [make, Fields.get?, if_neg (Ne.symm h)]
  exact Fields.get?_erase_of_ne fields h

/-- A new version of a document differs from it in fields that the update names only. -/
theorem get?_updated {old : Document} (hfirst : old.IdFirst) {u : Update} {fields : Fields Value}
    {effect : UpdateEffect} (h : u.apply old.fields = .ok (fields, effect)) {name : String}
    (hname : name ∉ effect.touched) :
    Fields.get? (make old.id fields).fields name = Fields.get? old.fields name := by
  by_cases hid : name = idField
  · rw [hid, get?_make_id, hfirst.get?]
  · rw [get?_make_of_ne _ _ hid, Update.get?_apply h hname]

end Document

namespace Collection

variable {s : Schema} {c : Collection}

/-- **The documents of a collection are valid**: a schema is enforced, and accepts them in full. -/
structure Valid (s : Schema) (c : Collection) : Prop where
  schema : c.schema = some s
  action : c.options.action = .error
  idFirst : ∀ d ∈ c.documents, d.IdFirst
  accepted : ∀ d ∈ c.documents, s.validate d.toValue = .ok ()

/-! ## Checks -/

/-- What passes an enforced check has no violation. -/
theorem verdict_of_checked (haction : c.options.action = .error) {doc : Document}
    {touched : Option (List String)} (h : c.checked doc touched = .ok ()) :
    c.verdict doc touched = .ok () := by
  unfold checked at h
  cases hv : c.verdict doc touched with
  | ok u => rfl
  | error e => simp [hv, haction] at h

theorem Valid.validate_of_checked (h : Valid s c) {doc : Document}
    (hchecked : c.checked doc none = .ok ()) : s.validate doc.toValue = .ok () := by
  have hverdict := verdict_of_checked h.action hchecked
  simpa [verdict, h.schema] using hverdict

/-- **A new version of a valid document is valid**, whatever the level. -/
theorem Valid.validate_of_staged (hs : s.DeclaresOnce) (h : Valid s c) {u : Update}
    {old doc : Document} (hold : old ∈ c.documents) (hstaged : c.staged u old = .ok (some doc)) :
    s.validate doc.toValue = .ok () := by
  obtain ⟨fields, effect, hu, rfl, hchecked⟩ := staged_eq_some hstaged
  have hverdict := verdict_of_checked h.action hchecked
  cases hlevel : c.options.level with
  | strict => simpa [verdict, h.schema, hlevel] using hverdict
  | relaxed =>
      -- Only the fields that the update names were checked; it has left the others alone.
      have hnamed : s.validateFields effect.touched (Document.make old.id fields).toValue =
          .ok () := by
        simpa [verdict, h.schema, hlevel] using hverdict
      exact Schema.checkFields_of_checkNamed hs (h.accepted old hold) hnamed
        fun name hname => Document.get?_updated (h.idFirst old hold) hu hname

/-! ## Moving -/

/-- Moves leave the schema and the options. -/
theorem Move.settings {c c' : Collection} (h : Move c c') :
    c'.schema = c.schema ∧ c'.options = c.options := by
  cases h with
  | replace hold _ =>
      unfold replaced
      split <;> exact ⟨rfl, rfl⟩
  | remove position =>
      unfold removed
      split <;> exact ⟨rfl, rfl⟩
  | _ => exact ⟨rfl, rfl⟩

/-- A move brings in accepted documents only. -/
theorem Valid.of_documents {c c' : Collection} (h : Valid s c) (hmove : Move c c')
    (hdocs : ∀ d ∈ c'.documents, d ∈ c.documents ∨ d.IdFirst ∧ s.validate d.toValue = .ok ()) :
    Valid s c' := by
  obtain ⟨hschema, hoptions⟩ := hmove.settings
  refine ⟨hschema.trans h.schema, hoptions ▸ h.action, ?_, ?_⟩
  · intro d hd
    rcases hdocs d hd with hd | ⟨hfirst, -⟩
    · exact h.idFirst d hd
    · exact hfirst
  · intro d hd
    rcases hdocs d hd with hd | ⟨-, haccepted⟩
    · exact h.accepted d hd
    · exact haccepted

theorem Valid.move (hs : s.DeclaresOnce) {c c' : Collection} (hmove : Move c c') (h : Valid s c) :
    Valid s c' := by
  refine h.of_documents hmove ?_
  cases hmove with
  | draw source => exact fun d hd => .inl hd
  | @insert v doc hdoc =>
      obtain ⟨hvalue, -, hchecked⟩ := prepared_eq_ok hdoc
      intro d hd
      rw [documents_inserted, List.mem_append, List.mem_singleton] at hd
      rcases hd with hd | rfl
      · exact .inl hd
      · obtain ⟨id, fields, hmade⟩ := Document.ofValue_made hvalue
        exact .inr ⟨hmade ▸ Document.idFirst_make id fields, h.validate_of_checked hchecked⟩
  | @replace u position old doc hold hstaged =>
      intro d hd
      rw [documents_replaced] at hd
      rcases List.mem_or_eq_of_mem_set hd with hd | rfl
      · exact .inl hd
      · obtain ⟨fields, effect, -, hmade, -⟩ := staged_eq_some hstaged
        exact .inr ⟨hmade ▸ Document.idFirst_make _ fields,
          h.validate_of_staged hs (List.mem_of_getElem? hold) hstaged⟩
  | remove position =>
      intro d hd
      rw [documents_removed] at hd
      exact .inl (List.mem_of_mem_eraseIdx hd)
  | keep hdocs => exact fun d hd => .inl (hdocs ▸ hd)

end Collection

/-- **Validity.** Where violations of a schema are errors, and it accepts the documents that a
collection starts with, it accepts all documents in full after any calls, each of them succeeding or
failing, whatever the level. -/
theorem Call.accepted_runAll {s : Schema} (hs : s.Built) {c : Collection}
    (hschema : c.schema = some s) (haction : c.options.action = .error)
    (hbuilt : ∀ d ∈ c.documents, d.Built)
    (haccepted : ∀ d ∈ c.documents, s.validate d.toValue = .ok ())
    (calls : List (Call × PatternCache)) :
    ∀ d ∈ (runAll c calls).documents, s.validate d.toValue = .ok () := by
  have hvalid : Collection.Valid s c :=
    ⟨hschema, haction, fun d hd => (hbuilt d hd).idFirst, haccepted⟩
  exact ((moves_runAll c calls).keeps (Collection.Valid.move hs.declaresOnce) hvalid).accepted

/-- A schema that demands a name. -/
def Schema.named : Schema := (empty.require "name").declare "name" .string

/-- A collection of one document that checks only what updates name. -/
def Collection.pets : Collection where
  name := "pets"
  storage := .inMemory [.make (.int 1) [("name", .string "Rex"), ("age", .int 3)]]
  ids := [.int 1]
  schema := some .named
  options := { level := .relaxed }
  source := .sequential 1

/-- The schema demands a name, and no update takes it away. -/
theorem Call.accepted_runAll_pets :
    Schema.named.Built ∧
      ∀ d ∈ (runAll .pets
        [(.updateOne (.object []) (.object [("$unset", .object [("name", .null)])]) false, .empty),
          (.updateOne (.object []) (.object [("$unset", .object [("age", .null)])]) false, .empty),
          (.insertOne (.object [("name", .null)]), .empty)]).documents,
        Schema.named.validate d.toValue = .ok () := by
  have hschema : Schema.named.Built := .declare (.require .empty "name") "name" .string
  refine ⟨hschema, accepted_runAll hschema rfl rfl ?_ ?_ _⟩
  · intro d hd
    rw [List.mem_singleton.1 hd]
    exact .make _ _
  · intro d hd
    rw [List.mem_singleton.1 hd]
    rfl

end DocStore
