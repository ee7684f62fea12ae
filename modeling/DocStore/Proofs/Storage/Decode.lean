import DocStore.Proofs.Document
import DocStore.Proofs.Storage.Simulation
import DocStore.Proofs.Value.Json

/-!
# Documents read back from journals

Equality of documents is not transitive, as that of values is not. A document that is read back from
the journal and equals the one that was written is alike it in a finer sense, which is: `Alike`.
-/

set_option autoImplicit false

namespace DocStore

namespace DocumentId

/-! ## Ids as values -/

theorem equal_toValue_self (id : DocumentId) : id.toValue.equal id.toValue = true := by
  cases id <;> simp [toValue, Value.equal, Value.equalNumbers]

/-- Two values that equal an id are equal. -/
theorem equal_of_equal_toValue {id : DocumentId} {v w : Value} (hv : id.toValue.equal v = true)
    (hw : id.toValue.equal w = true) : v.equal w = true := by
  cases id with
  | int n =>
      cases v with
      | int a =>
          obtain rfl : n = a := by simpa [toValue, Value.equal, Value.equalNumbers] using hv
          exact hw
      | float f =>
          cases w with
          | int b =>
              obtain rfl : n = b := by simpa [toValue, Value.equal, Value.equalNumbers] using hw
              exact Binary64.equal_symm hv
          | float g => exact Binary64.equal_trans (Binary64.equal_symm hv) hw
          | _ => cases hw
      | _ => cases hv
  | string s =>
      cases v with
      | string t =>
          obtain rfl : s = t := by simpa [toValue, Value.equal] using hv
          exact hw
      | _ => cases hv
  | generated s =>
      cases v with
      | string t =>
          obtain rfl : s = t := by simpa [toValue, Value.equal] using hv
          exact hw
      | _ => cases hv

end DocumentId

namespace Document

/-! ## Alike documents -/

/-- A document whose fields have different names and name its id. -/
def Keyed (d : Document) : Prop :=
  (Fields.keys d.fields).Nodup ∧
    ∃ raw, Fields.get? d.fields idField = some raw ∧ d.id.toValue.equal raw = true

/-- Documents of one id whose other fields are alike. -/
structure Alike (a b : Document) : Prop where
  same : a.id.same b.id = true
  left : a.Keyed
  right : b.Keyed
  fields : Value.AlikeFields (Fields.erase a.fields idField) (Fields.erase b.fields idField)

theorem likeness_alike : Likeness Alike where
  symm h := ⟨by rw [DocumentId.same_comm]; exact h.same, h.right, h.left, h.fields.symm⟩
  trans h h' :=
    ⟨DocumentId.same_trans h.same h'.same, h.left, h'.right, h.fields.trans h'.fields⟩
  same h := h.same

theorem Alike.equal {a b : Document} (h : Alike a b) : a.equal b = true := by
  obtain ⟨hsame, ⟨hkeys, raw, hraw, hid⟩, ⟨hkeys', raw', hraw', hid'⟩, hfields⟩ := h
  have hlength : a.fields.length = b.fields.length := calc
    a.fields.length = (Fields.erase a.fields idField).length + 1 :=
      (Fields.length_erase hraw).symm
    _ = (Fields.erase b.fields idField).length + 1 := by
      rw [Fields.length_eq_of_keys hfields.keys_eq]
    _ = b.fields.length := Fields.length_erase hraw'
  have hothers : ∀ e ∈ Fields.erase a.fields idField,
      ∃ w, Fields.get? b.fields e.1 = some w ∧ e.2.equal w = true := by
    refine Value.equalFields_iff.1 (hfields.equalFields fun e he => ?_)
    exact Fields.get?_of_mem hkeys' ((Fields.mem_erase hkeys').1 he).1
  have heach : ∀ e ∈ a.fields, ∃ w, Fields.get? b.fields e.1 = some w ∧ e.2.equal w = true := by
    rintro ⟨k, v⟩ he
    by_cases hk : k = idField
    · -- Both values of the id equal it, and ids are compared exactly.
      subst hk
      rw [Fields.get?_of_mem hkeys he] at hraw
      cases hraw
      rw [← DocumentId.same_iff.1 hsame] at hid'
      exact ⟨raw', hraw', DocumentId.equal_of_equal_toValue hid hid'⟩
    · exact hothers _ ((Fields.mem_erase hkeys).2 ⟨he, hk⟩)
  rw [Document.equal, hsame, Bool.true_and, toValue, toValue, Value.equal, hlength,
    beq_self_eq_true, Bool.true_and]
  exact Value.equalFields_iff.2 heach

/-! ## Documents read back -/

theorem keyed_make (id : DocumentId) {fields : Fields Value} (h : (Fields.keys fields).Nodup) :
    (make id fields).Keyed := by
  refine ⟨List.nodup_cons.2 ⟨fun hmem => ?_, Fields.nodup_keys_erase h idField⟩, id.toValue,
    (idFirst_make id fields).get?, id.equal_toValue_self⟩
  obtain ⟨e, he, heq⟩ := List.mem_map.1 hmem
  exact ((Fields.mem_erase h).1 he).2 heq

theorem erase_make (id : DocumentId) (fields : Fields Value) :
    Fields.erase (make id fields).fields idField = Fields.erase fields idField :=
  if_pos rfl

/-- **A document that is read back and equal is alike** the one that was written. -/
theorem alike_of_reread {d d' : Document} {j : Json} (hread : d.toValue.toJson.reread? = some j)
    (hstored : ofStored? (Value.ofJson j.merged) = some d') (h : d'.equal d = true) :
    d'.Alike d := by
  obtain ⟨read, hfields, rfl⟩ := Option.map_eq_some_iff.1 hread
  obtain ⟨fields, hobject, hstored⟩ := Option.bind_eq_some_iff.1 hstored
  obtain ⟨raw, hraw, hstored⟩ := Option.bind_eq_some_iff.1 hstored
  obtain ⟨id, _, hstored⟩ := Option.bind_eq_some_iff.1 hstored
  cases hstored
  obtain ⟨hsame, h⟩ := Bool.and_eq_true_iff.1 h
  obtain ⟨hlength, hequal⟩ := Bool.and_eq_true_iff.1 h
  have hvalue : fields = Value.ofJsonFields (Fields.ofEntries (Json.mergedFields read)) := by
    rw [Json.merged] at hobject
    rcases Value.ofJson_object (Fields.ofEntries (Json.mergedFields read)) with ⟨t, hdate⟩ | hfields
    · rw [hdate] at hobject
      cases hobject
    · rw [hfields] at hobject
      cases hobject
      rfl
  -- As many fields were read as were written, so none was merged with another.
  have hall : fields.length = d.fields.length := by
    rw [← Fields.length_erase hraw]
    exact eq_of_beq hlength
  rw [hvalue] at hall
  obtain ⟨hmerged, hkeys⟩ := Value.fields_of_length hfields hall
  rw [hmerged] at hvalue
  have hkeys' : (Fields.keys fields).Nodup := by
    rw [hvalue, Value.keys_ofJsonFields, Value.keys_mergedFields, Value.keys_reread hfields]
    exact hkeys
  obtain ⟨hid, hrest⟩ := List.forall_mem_cons.1 (Value.equalFields_iff.1 hequal)
  refine ⟨hsame, keyed_make id hkeys', ⟨hkeys, ?_⟩, ?_⟩
  · rw [← DocumentId.same_iff.1 hsame]
    exact hid
  · -- The field of the id was written anew; the others are those that were read.
    rw [erase_make, hvalue, ← Value.erase_ofJsonFields, ← Value.erase_mergedFields]
    refine Value.alikeFields_of_reread (Value.reread_erase idField hfields)
      (Value.equalFields_iff.2 ?_) fun e he =>
        Fields.get?_of_mem hkeys ((Fields.mem_erase hkeys).1 he).1
    rw [Value.erase_mergedFields, Value.erase_ofJsonFields, ← hvalue]
    exact hrest

end Document

namespace JournalRecord

/-! ## Records read back -/

/-- A line decodes iff the numbers of its JSON can be read, it does not nest too deeply and is that
of a record. -/
theorem ofLine_line_eq_ok {r r' : JournalRecord} : ofLine r.line = .ok r' ↔
    ∃ j, r.toJson.reread? = some j ∧ j.depth ≤ Json.maxDepth ∧ ofJson? j = some r' := by
  rw [ofLine_line, Json.written?_render]
  cases r.toJson.reread? with
  | none => simp
  | some j =>
      by_cases hdepth : j.depth ≤ Json.maxDepth
      · cases hr : ofJson? j <;> simp [hdepth, hr]
      · simp [hdepth]

theorem ofJson?_insert (j : Json) :
    ofJson? (.object [("op", .string "insert"), ("doc", j)]) =
      (readDocument? j.merged).bind fun doc => some (.insert doc) := rfl

theorem ofJson?_replace (i j : Json) :
    ofJson? (.object [("op", .string "replace"), ("id", i), ("doc", j)]) =
      (readId? i.merged).bind fun id =>
        (readDocument? j.merged).bind fun doc => some (.replace id doc) := rfl

theorem reread_insert {doc : Document} {j : Json} :
    (JournalRecord.insert doc).toJson.reread? = some j ↔ ∃ k,
      doc.toValue.toJson.reread? = some k ∧ j = .object [("op", .string "insert"), ("doc", k)] := by
  constructor
  · intro h
    obtain ⟨_, hfields, rfl⟩ := Option.map_eq_some_iff.1 h
    obtain ⟨_, _, hop, hdoc, rfl⟩ := Json.rereadFields?_cons.1 hfields
    obtain ⟨k, _, hk, hend, rfl⟩ := Json.rereadFields?_cons.1 hdoc
    cases hop
    cases hend
    exact ⟨k, hk, rfl⟩
  · rintro ⟨k, hk, rfl⟩
    refine Option.map_eq_some_iff.2 ⟨_, Json.rereadFields?_cons.2 ⟨_, _, rfl, ?_, rfl⟩, rfl⟩
    exact Json.rereadFields?_cons.2 ⟨k, [], hk, rfl, rfl⟩

theorem exists_reread_insert {doc : Document} {r : JournalRecord}
    (h : ofLine (JournalRecord.insert doc).line = .ok r) :
    ∃ j doc', doc.toValue.toJson.reread? = some j ∧ readDocument? j.merged = some doc' ∧
      r = .insert doc' := by
  obtain ⟨_, hread, _, hr⟩ := ofLine_line_eq_ok.1 h
  obtain ⟨j, hj, rfl⟩ := reread_insert.1 hread
  rw [ofJson?_insert] at hr
  obtain ⟨doc', hdoc, hr⟩ := Option.bind_eq_some_iff.1 hr
  cases hr
  exact ⟨j, doc', hj, hdoc, rfl⟩

theorem exists_reread_replace {id : DocumentId} {doc : Document} {r : JournalRecord}
    (h : ofLine (JournalRecord.replace id doc).line = .ok r) :
    ∃ j id' doc', doc.toValue.toJson.reread? = some j ∧ readDocument? j.merged = some doc' ∧
      r = .replace id' doc' := by
  obtain ⟨_, hread, _, hr⟩ := ofLine_line_eq_ok.1 h
  obtain ⟨_, hfields, rfl⟩ := Option.map_eq_some_iff.1 hread
  obtain ⟨_, _, hop, hid, rfl⟩ := Json.rereadFields?_cons.1 hfields
  obtain ⟨_, _, _, hdoc, rfl⟩ := Json.rereadFields?_cons.1 hid
  obtain ⟨j, _, hj, hend, rfl⟩ := Json.rereadFields?_cons.1 hdoc
  cases hop
  cases hend
  rw [ofJson?_replace] at hr
  obtain ⟨id', _, hr⟩ := Option.bind_eq_some_iff.1 hr
  obtain ⟨doc', hdoc, hr⟩ := Option.bind_eq_some_iff.1 hr
  cases hr
  exact ⟨j, id', doc', hj, hdoc, rfl⟩

/-- **A record that decodes to an equal one decodes to an alike one.** -/
theorem Decodes.alike {r : JournalRecord} (h : r.Decodes fun a b => a.equal b = true) :
    r.Decodes Document.Alike := by
  obtain ⟨r', hline, hequal⟩ := h
  refine ⟨r', hline, ?_⟩
  cases hequal with
  | insert hequal =>
      obtain ⟨j, doc', hj, hdoc, heq⟩ := exists_reread_insert hline
      cases heq
      exact .insert (Document.alike_of_reread hj hdoc hequal)
  | replace hid hequal =>
      obtain ⟨j, id', doc', hj, hdoc, heq⟩ := exists_reread_replace hline
      cases heq
      exact .replace hid (Document.alike_of_reread hj hdoc hequal)
  | remove hid => exact .remove hid

end JournalRecord

end DocStore
