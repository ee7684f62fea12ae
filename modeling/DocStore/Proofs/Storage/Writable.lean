import DocStore.Proofs.Collection.Content
import DocStore.Proofs.Storage.Equivalence
import DocStore.Proofs.Value.Writable

/-!
# Documents that survive their records

The record of a regular document decodes to an equal one iff the document is `Writable`: its values
are, and it does not nest too deeply (`decodes_insert_iff`). So this is what decides it for every
document that a collection comes to hold: `Call.decodes_runAll_iff`.
-/

set_option autoImplicit false

namespace DocStore

namespace Value

/-- Alike fields stay alike without the one of a name. -/
theorem AlikeFields.erase {as bs : List (String × Value)} (h : AlikeFields as bs)
    (name : String) : AlikeFields (Fields.erase as name) (Fields.erase bs name) := by
  induction as generalizing bs with
  | nil =>
      cases h
      exact .nil
  | cons e rest ih =>
      cases h with
      | cons k head tail =>
          by_cases hk : k = name
          · simpa [Fields.erase, hk] using tail
          · simpa [Fields.erase, hk] using AlikeFields.cons k head (ih tail)

/-- What is alike the value of an id is the value of the id. -/
theorem exists_id_of_alike {id : DocumentId} {w : Value} (h : Alike w id.toValue) :
    ∃ id', DocumentId.ofValue w = .ok id' ∧ id'.same id = true := by
  cases id <;> cases h <;> exact ⟨_, rfl, by simp [DocumentId.same, DocumentId.text?]⟩

/-- The value of an id is kept by its JSON text. -/
theorem alike_toValue_id {id : DocumentId} {j : Json} (h : id.toValue.toJson.reread? = some j) :
    Alike (ofJson j.merged) id.toValue := by
  cases id with
  | int n => exact alike_int n h
  | string s =>
      cases h
      exact .string s
  | generated s =>
      cases h
      exact .string s

end Value

namespace Document

/-- A document that its record keeps. -/
structure Writable (d : Document) : Prop where
  values : d.toValue.Writable
  depth : d.toValue.toJson.depth < Json.maxDepth

variable {d : Document}

theorem Regular.keyed (h : d.Regular) : d.Keyed :=
  ⟨h.fields.1, d.id.toValue, h.idFirst.get?, d.id.equal_toValue_self⟩

theorem IdFirst.fields_eq (h : d.IdFirst) :
    d.fields = (idField, d.id.toValue) :: d.fields.tail := by
  obtain ⟨rest, hrest⟩ := List.head?_eq_some_iff.1 h
  rw [hrest, List.tail_cons]

/-- A value that is alike a document is one with an alike document. -/
theorem exists_alike {v : Value} (h : d.Regular) (halike : v.Alike d.toValue) :
    ∃ d', ofStored? v = some d' ∧ d'.Alike d := by
  cases halike with
  | @object fields _ hkeys halike =>
      have hfields := halike
      rw [h.idFirst.fields_eq] at hfields
      cases hfields with
      | cons _ head tail =>
          obtain ⟨id, hid, hsame⟩ := Value.exists_id_of_alike head
          -- The other fields are all that is left to compare.
          refine ⟨make id _, ?_, hsame, keyed_make id hkeys, h.keyed, ?_⟩
          · simp [ofStored?, Value.object?, Fields.get?, hid, Except.toOption]
          · rw [erase_make]
            exact halike.erase idField

/-- A document whose JSON text keeps its values is read back as an equal one. -/
theorem exists_reread (h : d.Regular) (hvalues : d.toValue.Writable) :
    ∃ j d', d.toValue.toJson.reread? = some j ∧
      JournalRecord.readDocument? j.merged = some d' ∧ d'.equal d = true := by
  obtain ⟨j, hj, hvalue⟩ := (Value.exists_reread_iff _ h.fields).2 hvalues
  obtain ⟨d', hdoc, halike⟩ := exists_alike h hvalue
  exact ⟨j, d', hj, hdoc, halike.equal⟩

/-- If the document of a value that is read back is alike the one that was written, so is the
value. -/
theorem alike_toValue (h : d.Regular) {j : Json} (hread : d.toValue.toJson.reread? = some j)
    {d' : Document} (hstored : ofStored? (Value.ofJson j.merged) = some d') (halike : d'.Alike d) :
    (Value.ofJson j.merged).Alike d.toValue := by
  obtain ⟨read, hfields, rfl⟩ := Option.map_eq_some_iff.1 hread
  have hkeys : (Fields.keys (Value.ofJsonFields (Json.mergedFields read))).Nodup := by
    rw [Value.keys_ofJsonFields, Value.keys_mergedFields, Value.keys_reread hfields]
    exact h.fields.1
  have hvalue : Value.ofJson (Json.merged (.object read)) =
      .object (Value.ofJsonFields (Json.mergedFields read)) := by
    rw [Json.merged] at hstored ⊢
    rw [Fields.ofEntries_of_nodup (by rwa [← Value.keys_ofJsonFields])] at hstored ⊢
    -- A date would stand for no document.
    refine (Value.ofJson_object _).resolve_left ?_
    rintro ⟨t, hdate⟩
    rw [hdate] at hstored
    cases hstored
  rw [hvalue] at hstored ⊢
  obtain ⟨_, -, hstored⟩ := Option.bind_eq_some_iff.1 hstored
  obtain ⟨id, -, ⟨⟩⟩ := Option.bind_eq_some_iff.1 hstored
  have hrest := halike.fields
  rw [erase_make] at hrest
  rw [h.idFirst.fields_eq] at hfields hrest
  obtain ⟨k, more, hk, hmore, rfl⟩ := Json.rereadFields?_cons.1 hfields
  refine .object hkeys ?_
  rw [h.idFirst.fields_eq]
  refine .cons idField (Value.alike_toValue_id hk) ?_
  simpa [Json.mergedFields, Value.ofJsonFields, Fields.erase] using hrest

end Document

namespace JournalRecord

variable {d : Document}

theorem depth_insert {k : Json} (hk : d.toValue.toJson.reread? = some k) :
    (Json.object [("op", .string "insert"), ("doc", k)]).depth =
      d.toValue.toJson.depth + 1 := by
  simp only [Json.depth, Json.depthOfFields, Nat.max_zero, Nat.zero_max, Json.depth_reread hk]
  omega

/-- **Whether a document survives its record.** The record decodes to one of an equal document iff
the document is writable. -/
theorem decodes_insert_iff (h : d.Regular) :
    ((JournalRecord.insert d).Decodes fun a b => a.equal b = true) ↔ d.Writable := by
  constructor
  · intro hdecodes
    -- The document that is decoded is alike, and so is the value that it was made of.
    obtain ⟨r', hline, halike⟩ := hdecodes.alike
    obtain ⟨j, hread, hdepth, hr⟩ := ofLine_line_eq_ok.1 hline
    obtain ⟨k, hk, rfl⟩ := reread_insert.1 hread
    rw [ofJson?_insert] at hr
    obtain ⟨d', hdoc, hr⟩ := Option.bind_eq_some_iff.1 hr
    cases hr
    cases halike with
    | insert halike =>
        have hvalue := Document.alike_toValue h hk hdoc halike
        refine ⟨(Value.exists_reread_iff _ h.fields).1 ⟨k, hk, hvalue⟩, ?_⟩
        rw [depth_insert hk] at hdepth
        exact hdepth
  · rintro ⟨hvalues, hdepth⟩
    obtain ⟨k, d', hk, hdoc, hequal⟩ := Document.exists_reread h hvalues
    refine Storage.decodes_of_reread (reread_insert.2 ⟨k, hk, rfl⟩) ?_ ?_ (.insert hequal)
    · rw [depth_insert hk]
      exact hdepth
    · rw [ofJson?_insert, hdoc]
      rfl

end JournalRecord

namespace Call

/-- **Documents that survive their records.** Whatever calls are made on a collection of regular
documents, such as an empty one, with JSON arguments in which no object has two fields of one name:
of each document that the collection holds, the record decodes to one of an equal document iff the
document is writable. -/
theorem decodes_runAll_iff {c : Collection} (hc : ∀ d ∈ c.documents, d.Regular)
    {calls : List (Call × PatternCache)} (hcalls : ∀ e ∈ calls, e.1.Distinct) :
    ∀ d ∈ (runAll c calls).documents,
      ((JournalRecord.insert d).Decodes fun a b => a.equal b = true) ↔ d.Writable :=
  fun d hd => JournalRecord.decodes_insert_iff (regular_runAll hc hcalls d hd)

/-- A pet without tags, which then gets its second tag. -/
def tagCalls : List (Call × PatternCache) :=
  [(.insertOne (.object [("name", .string "Rex"), ("tags", .array [])]), .empty),
    (.updateOne (.object [("name", .string "Rex")])
      (.object [("$set", .object [("tags.1", .string "calm")])]) false, .empty)]

theorem distinct_tagCalls : ∀ e ∈ tagCalls, e.1.Distinct := by
  simp [tagCalls, Distinct, Json.Distinct, Json.DistinctFields, Json.DistinctItems, Fields.keys]

theorem decodes_runAll_iff_tags :
    (∀ d ∈ (Collection.empty "pets" none {} (.sequential 0)).documents, d.Regular) ∧
    (∀ e ∈ tagCalls, e.1.Distinct) ∧
    (runAll (.empty "pets" none {} (.sequential 0)) tagCalls).documents =
      [.make (.int 1) [("name", .string "Rex"), ("tags", .array [.null, .string "calm"])]] ∧
    ∀ d ∈ (runAll (.empty "pets" none {} (.sequential 0)) tagCalls).documents,
      ((JournalRecord.insert d).Decodes fun a b => a.equal b = true) ↔ d.Writable :=
  ⟨List.forall_mem_nil _, distinct_tagCalls, rfl,
    decodes_runAll_iff (List.forall_mem_nil _) distinct_tagCalls⟩

/-- A document with a date in the year 10000. -/
def farDate : Json :=
  .object [("_id", .number (.integer 1)),
    ("at", .object [("$date", .number (.integer 253402300800000))])]

/-- **A date is lost**: the text of a year of five digits is not read as a date. -/
theorem not_decodes_farDate :
    (insertOne farDate).Distinct ∧
    ∃ d ∈ (runAll (.empty "log" none {} (.sequential 0)) [(.insertOne farDate, .empty)]).documents,
      ¬ (JournalRecord.insert d).Decodes fun a b => a.equal b = true := by
  have hdistinct : (insertOne farDate).Distinct := by
    simp [farDate, Distinct, Json.Distinct, Json.DistinctFields, Fields.keys]
  have hdocuments : (runAll (.empty "log" none {} (.sequential 0))
      [(.insertOne farDate, .empty)]).documents =
        [.make (.int 1) [("at", .date ⟨253402300800, 0⟩)]] := rfl
  have hregular := regular_runAll (c := .empty "log" none {} (.sequential 0))
    (List.forall_mem_nil _) (List.forall_mem_singleton.2 hdistinct : ∀ e ∈
      [(insertOne farDate, PatternCache.empty)], e.1.Distinct)
  refine ⟨hdistinct, _, hdocuments ▸ List.mem_cons_self, fun h => ?_⟩
  have hwritable := (JournalRecord.decodes_insert_iff
    (hregular _ (hdocuments ▸ List.mem_cons_self))).1 h
  exact absurd hwritable.values.2.2.1.1 (by decide)

end Call

end DocStore
