import DocStore.Collection.Request
import DocStore.Proofs.Collection.Action
import DocStore.Proofs.Collection.Identity
import DocStore.Proofs.Number.Rounding
import DocStore.Proofs.Value.Alike
import DocStore.Proofs.Value.Json

/-!
# Finding documents by their ids

A value that names the id of a document is compared with the stored ids as filters compare values.
Integers and texts single out one id. A double is stored as an integer, and compared with integers
that are rounded to doubles, so it may equal several ids, or none: `Request.find_id_iff`.
-/

set_option autoImplicit false

namespace DocStore

open DocStore.Action

/-! ## Values that name ids -/

namespace DocumentId

/-- A value singles out an id beside others: it equals the id as it is stored, and no other. -/
structure SingledOut (id : DocumentId) (others : List DocumentId) (v : Value) : Prop where
  equal : Value.equal id.toValue v = true
  others : ∀ other ∈ others, Value.equal other.toValue v = false

/-- The values that are ids. -/
theorem ofValue_eq_ok {v : Value} {id : DocumentId} (h : ofValue v = .ok id) :
    (∃ n, v = .int n ∧ id = .int n) ∨ (∃ s, v = .string s ∧ id = .string s) ∨
      ∃ f, v = .float f ∧ Binary64.isIntegral f = true ∧ id = .int (Binary64.saturate f) := by
  unfold ofValue at h
  split at h
  · cases h
    exact .inl ⟨_, rfl, rfl⟩
  · cases h
    exact .inr (.inl ⟨_, rfl, rfl⟩)
  · rename_i f
    split at h
    · rename_i hwhole
      cases h
      exact .inr (.inr ⟨f, rfl, hwhole, rfl⟩)
    · cases h
  · cases h

/-- Values of one kind that is not a double are equal iff they are the same id. -/
theorem equal_toValue (id other : DocumentId) :
    Value.equal other.toValue id.toValue = id.same other := by
  cases id <;> cases other <;>
    simp [toValue, same, text?, Value.equal, Value.equalNumbers, Bool.beq_comm]

/-- **Integers and texts single out their ids**, whatever other ids there are. -/
theorem singledOut_of_ofValue {v : Value} {id : DocumentId} (h : ofValue v = .ok id)
    (hfloat : ∀ f, v ≠ .float f) {others : List DocumentId} (hnew : id.isIn others = false) :
    id.SingledOut others v := by
  have hv : v = id.toValue := by
    rcases ofValue_eq_ok h with ⟨n, rfl, rfl⟩ | ⟨s, rfl, rfl⟩ | ⟨f, rfl, -, -⟩
    · rfl
    · rfl
    · exact absurd rfl (hfloat f)
  subst hv
  refine ⟨by rw [equal_toValue, same_refl], fun other hother => ?_⟩
  rw [equal_toValue, Bool.eq_false_iff]
  intro hsame
  rw [Bool.eq_false_iff] at hnew
  exact hnew (isIn_iff.2 ⟨other, hother, hsame⟩)

/-- **So do whole doubles of fewer bits than a significand**, whose integers no other integer is
rounded to. -/
theorem singledOut_of_truncate_lt {f : Float} {id : DocumentId} (h : ofValue (.float f) = .ok id)
    (hlt : (Binary64.truncate f).natAbs < 2 ^ 53) {others : List DocumentId}
    (hnew : id.isIn others = false) : id.SingledOut others (.float f) := by
  obtain ⟨n, ⟨⟩, -⟩ | ⟨s, ⟨⟩, -⟩ | ⟨f, ⟨⟩, hwhole, rfl⟩ := ofValue_eq_ok h
  have hnan : Binary64.isNaN f = false := by
    rw [Binary64.isIntegral, Bool.and_eq_true] at hwhole
    exact Binary64.isNaN_eq_false_of_isFinite hwhole.1
  have hstored : (Binary64.saturate f).toInt = Binary64.truncate f :=
    Binary64.toInt_saturate hnan (by omega)
  have hscaled : Binary64.scaled (Binary64.ofInt64 (Binary64.saturate f)) = Binary64.scaled f := by
    rw [Binary64.ofInt64, hstored, Binary64.scaled_ofInt_truncate hwhole hlt]
  refine ⟨Binary64.equal_iff.2 ⟨Binary64.isNaN_ofInt64 _, hnan, hscaled⟩, fun other hother => ?_⟩
  cases other with
  | int m =>
      rw [Bool.eq_false_iff]
      intro hequal
      obtain ⟨-, -, hm⟩ := Binary64.equal_iff.1 hequal
      have hsame : m = Binary64.saturate f := Int64.toInt_inj.1
        (Binary64.eq_of_scaled_ofInt_eq (Binary64.natAbs_toInt_lt m) (hstored ▸ hlt)
          (hm.trans hscaled.symm))
      rw [Bool.eq_false_iff] at hnew
      exact hnew (isIn_iff.2 ⟨.int m, hother, same_iff.2 (hsame ▸ rfl)⟩)
  | string s => rfl
  | generated s => rfl

/-- Only doubles of 53 bits and more may fail to single out the id that they name. -/
theorem singledOut_iff {v : Value} {id : DocumentId} (h : ofValue v = .ok id)
    {others : List DocumentId} (hnew : id.isIn others = false) :
    id.SingledOut others v ↔ ∀ f, v = .float f → 2 ^ 53 ≤ (Binary64.truncate f).natAbs →
      id.SingledOut others (.float f) := by
  refine ⟨fun hv f hf _ => hf ▸ hv, fun hlarge => ?_⟩
  by_cases hfloat : ∃ f, v = .float f
  · obtain ⟨f, rfl⟩ := hfloat
    rcases Nat.lt_or_ge (Binary64.truncate f).natAbs (2 ^ 53) with hlt | hge
    · exact singledOut_of_truncate_lt h hlt hnew
    · exact hlarge f rfl hge
  · exact singledOut_of_ofValue h (fun f hf => hfloat ⟨f, hf⟩) hnew

end DocumentId

namespace Collection

variable {c : Collection}

/-! ## Searching for an id -/

/-- A document passes the filter of an id iff its id is equal. -/
theorem holds_id {d : Document} (h : d.IdFirst) (v : Value) :
    (Filter.field idField (.eq v)).holds d.fields = Value.equal d.id.toValue v := by
  have hterminals : Value.fieldTerminals d.fields idField = [d.id.toValue] := by
    change (Fields.get? d.fields idField).toList.flatMap (Value.reach []) = _
    rw [h.get?]
    rfl
  rw [Filter.holds, hterminals]
  cases hid : d.id <;>
    simp [DocumentId.toValue, Condition.holds, Condition.anyCandidate, Condition.candidates,
      Value.array?]

/-- Behind documents with other ids, a document alone is found iff its id is singled out. -/
theorem found_id_iff {docs : List Document} {doc : Document} (hdocs : ∀ d ∈ docs, d.IdFirst)
    (hdoc : doc.IdFirst) (hnew : doc.id.isIn (docs.map (·.id)) = false) (v : Value) :
    ((docs ++ [doc]).filter fun d => (Filter.field idField (.eq v)).holds d.fields).map
        Document.toValue = [doc.toValue] ↔
      doc.id.SingledOut (docs.map (·.id)) v := by
  have hfilter : ((docs ++ [doc]).filter fun d =>
      (Filter.field idField (.eq v)).holds d.fields) =
        docs.filter (fun d => Value.equal d.id.toValue v) ++
          [doc].filter fun d => Value.equal d.id.toValue v := by
    rw [← List.filter_append]
    refine List.filter_congr fun d hd => holds_id ?_ v
    rcases List.mem_append.1 hd with hd | hd
    · exact hdocs d hd
    · rwa [List.mem_singleton.1 hd]
  rw [hfilter]
  by_cases hequal : Value.equal doc.id.toValue v = true
  · have hself : [doc].filter (fun d => Value.equal d.id.toValue v) = [doc] := by
      simp [hequal]
    have hnone : docs.filter (fun d => Value.equal d.id.toValue v) = [] ↔
        ∀ other ∈ docs.map (·.id), Value.equal other.toValue v = false := by
      rw [List.filter_eq_nil_iff, List.forall_mem_map]
      simp
    rw [hself, List.map_append, List.map_singleton, List.append_left_eq_self, List.map_eq_nil_iff,
      hnone]
    exact ⟨fun h => ⟨hequal, h⟩, fun h => h.others⟩
  · have hself : [doc].filter (fun d => Value.equal d.id.toValue v) = [] := by
      simp [hequal]
    rw [hself, List.append_nil]
    refine ⟨fun h => ?_, fun h => absurd h.equal hequal⟩
    -- Another document would have to be the same, with its id in front.
    exfalso
    obtain ⟨d, hd, heq⟩ := List.map_eq_singleton_iff.1 h
    have hmem : d ∈ docs := List.mem_of_mem_filter (hd ▸ List.mem_singleton_self d)
    have hfields : d.fields = doc.fields := by
      simpa [Document.toValue] using heq
    have hid := (hdocs d hmem).get?
    rw [hfields, hdoc.get?, Option.some.injEq] at hid
    rw [Bool.eq_false_iff] at hnew
    exact hnew (DocumentId.isIn_iff.2
      ⟨d.id, List.mem_map.2 ⟨d, hmem, rfl⟩, DocumentId.same_iff.2 hid⟩)

end Collection

/-! ## Documents from JSON -/

namespace Document

/-- An object that names an id is no date, and becomes a document of this id. -/
theorem ofValue_id_of_ofJson {fields : Fields Json} {raw : Json} {ids : IdSource} {doc : Document}
    (hraw : Fields.get? fields idField = some raw)
    (h : (ofValue (Value.ofJson (.object fields)) ids).1 = .ok doc) :
    DocumentId.ofValue (Value.ofJson raw) = .ok doc.id := by
  have hplain : Value.wrappedDate? fields = none := by
    unfold Value.wrappedDate?
    split
    · rename_i name content
      rw [if_neg]
      rintro rfl
      cases hraw
    · rfl
  have hget : Fields.get? (Value.ofJsonFields fields) idField = some (Value.ofJson raw) := by
    rw [Value.get?_ofJsonFields, hraw]
    rfl
  rw [Value.ofJson, hplain] at h
  simp only [ofValue, ofFields, hget] at h
  obtain ⟨id, hid, rfl⟩ := map_eq_ok.1 h
  exact hid

end Document

namespace Request

/-- A filter that names an id is read as the equality. -/
theorem read_id {raw : Json} {id : DocumentId}
    (h : DocumentId.ofValue (Value.ofJson raw) = .ok id) (cache : PatternCache) :
    ((Filter.read (.object [(idField, raw)]) : CachedReading Filter).run.run cache) =
      (.ok (.field idField (.eq (Value.ofJson raw))), cache) := by
  cases raw with
  | number n => rfl
  | string s => rfl
  | null => cases h
  | bool b => cases h
  | array items => cases h
  | object fields =>
      rw [Value.ofJson] at h
      split at h <;> cases h

/-- A search for an id with default options gives the documents that are found. -/
theorem answer_find_id {raw : Json} {id : DocumentId}
    (h : DocumentId.ofValue (Value.ofJson raw) = .ok id) (cache : PatternCache)
    (c : Collection) :
    answer (find (.object [(idField, raw)]) {}) cache c =
      .ok ((c.found (.field idField (.eq (Value.ofJson raw)))).map Document.toValue) := by
  have hkeys : FindOptions.sortKeys {} = .ok [] := rfl
  rw [answer_find (o := {}) (read_id h cache) hkeys rfl (by simp), Collection.arrange,
    SortKey.sort_nil]
  rfl

/-- **A document is found by the value that named its id.** Whatever calls were made before on a
collection that was opened, a document that is inserted by JSON with an id comes last, and a search
for this id with default options, right after, gives exactly this document, if the value is not a
double of 53 bits or more. For such a double it does so iff the id is singled out: equal to the
integer that it is stored as, and to no other id of the collection. -/
theorem answer_find_id_iff {c : Collection} (h : c.Opened) (calls : List (Call × PatternCache))
    (cache : PatternCache) {fields : Fields Json} {raw : Json}
    (hraw : Fields.get? fields idField = some raw) {id : DocumentId} {c' : Collection}
    (hinsert : outcome (Call.runAll c calls)
      (Collection.insertOne (Value.ofJson (.object fields))) = (.ok id, c')) :
    ∃ doc : Document, doc.id = id ∧
      c'.documents = (Call.runAll c calls).documents ++ [doc] ∧
      (answer (find (.object [(idField, raw)]) {}) cache c' = .ok [doc.toValue] ↔
        ∀ f, Value.ofJson raw = .float f → 2 ^ 53 ≤ (Binary64.truncate f).natAbs →
          id.SingledOut (Call.runAll c calls).documentIds (.float f)) := by
  have hcoherent := Call.coherent_runAll h calls
  generalize Call.runAll c calls = before at hinsert hcoherent
  obtain ⟨doc, hprepared, rfl, rfl⟩ := Collection.inserted_of_outcome hinsert
  obtain ⟨hvalue, hnew, -⟩ := Collection.prepared_eq_ok hprepared
  rw [hcoherent.ids] at hnew
  have hid := Document.ofValue_id_of_ofJson hraw hvalue
  have hdocuments : ((before.drawn (Value.ofJson (.object fields))).inserted doc).documents =
      before.documents ++ [doc] := by simp
  refine ⟨doc, rfl, hdocuments, ?_⟩
  rw [answer_find_id hid, Collection.found, hdocuments, Except.ok.injEq,
    Collection.found_id_iff hcoherent.idFirst (Document.Built.ofValue hvalue).idFirst hnew]
  exact DocumentId.singledOut_iff hid hnew

theorem answer_find_id_iff_rex :
    ∃ id c', outcome (Call.runAll (.empty "pets" none {} (.sequential 0))
        [(.insertOne (.object [("_id", .string "cat")]), .empty)])
      (Collection.insertOne (Value.ofJson (.object [("_id", .string "rex")]))) = (.ok id, c') ∧
    ∃ doc : Document, doc.id = id ∧
      c'.documents = (Call.runAll (.empty "pets" none {} (.sequential 0))
        [(.insertOne (.object [("_id", .string "cat")]), .empty)]).documents ++ [doc] ∧
      answer (find (.object [("_id", .string "rex")]) {}) .empty c' = .ok [doc.toValue] := by
  have hnamed : Fields.get? [("_id", Json.string "rex")] idField = some (.string "rex") := rfl
  refine ⟨.string "rex", _, rfl, ?_⟩
  obtain ⟨doc, hid, hdocuments, hfound⟩ := answer_find_id_iff
    (.empty "pets" none {} (.sequential 0))
    [(.insertOne (.object [("_id", .string "cat")]), .empty)] .empty hnamed rfl
  exact ⟨doc, hid, hdocuments, hfound.2 fun f hf => by cases hf⟩

/-- The double 2^53 is stored as an integer, but equals the integer after it as well: a search for
it gives the documents of both. -/
theorem not_answer_find_id_double :
    ∃ id c', outcome (Call.runAll (.empty "pets" none {} (.sequential 0))
        [(.insertOne (.object [("_id", .number (.integer (2 ^ 53 + 1)))]), .empty)])
      (Collection.insertOne
        (Value.ofJson (.object [("_id", .number (.double (Binary64.ofNat (2 ^ 53))))]))) =
          (.ok id, c') ∧
      ∀ doc, answer (find (.object [("_id", .number (.double (Binary64.ofNat (2 ^ 53))))]) {})
        .empty c' ≠ .ok [doc] := by
  refine ⟨_, _, rfl, fun doc hfound => ?_⟩
  change (.ok [.object [("_id", .int (2 ^ 53 + 1))], .object [("_id", .int (2 ^ 53))]] :
    Result (List Value)) = .ok [doc] at hfound
  cases hfound

end Request

end DocStore
