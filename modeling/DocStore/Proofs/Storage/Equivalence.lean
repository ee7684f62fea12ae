import DocStore.Proofs.Storage.Decode

/-!
# Storing in a file and in memory

A storage that starts with an empty file holds at every moment what a storage in memory holds after
the same changes, and its journal gives the same documents: `performAll_openFile`.
-/

set_option autoImplicit false

namespace DocStore

/-- Whether an operation changes documents. -/
def StorageOperation.isChange : StorageOperation → Bool
  | insert _ => true
  | replace _ _ => true
  | remove _ => true
  | _ => false

/-- Lists of equal documents. -/
abbrev EqualDocuments : List Document → List Document → Prop :=
  List.Forall₂ fun a b => a.equal b = true

namespace Storage

/-! ## In memory -/

/-- In memory every operation succeeds, and those that are no changes do nothing. -/
theorem perform_inMemory (docs : List Document) (op : StorageOperation) :
    ∃ docs', (inMemory docs).perform op = .ok (inMemory docs') ∧
      (op.isChange = false → docs' = docs) := by
  cases op with
  | insert doc => exact ⟨_, rfl, fun h => by cases h⟩
  | replace position doc =>
      exact ⟨_, perform_replace_inMemory docs position doc, fun h => by cases h⟩
  | remove position => exact ⟨_, perform_remove_inMemory docs position, fun h => by cases h⟩
  | flush => exact ⟨docs, rfl, fun _ => rfl⟩
  | compact => exact ⟨docs, rfl, fun _ => rfl⟩
  | reopen durability => exact ⟨docs, rfl, fun _ => rfl⟩

/-- In memory only the changes count. -/
theorem performAll_inMemory_filter (docs : List Document) (ops : List StorageOperation) :
    (inMemory docs).performAll (ops.filter (·.isChange)) = (inMemory docs).performAll ops := by
  induction ops generalizing docs with
  | nil => rfl
  | cons op rest ih =>
      obtain ⟨docs', hperform, hsame⟩ := perform_inMemory docs op
      by_cases hchange : op.isChange = true
      · rw [List.filter_cons_of_pos hchange, performAll, performAll, hperform]
        exact ih docs'
      · rw [List.filter_cons_of_neg hchange, ih, performAll, hperform,
          hsame (Bool.eq_false_iff.2 hchange)]
        rfl

/-! ## Runs -/

section Runs

variable {E F : Document → Document → Prop} {s : Storage}

theorem Sound.mono (hEF : ∀ r : JournalRecord, r.Decodes E → r.Decodes F)
    {ops : List StorageOperation} (h : Sound E s ops) : Sound F s ops := by
  induction ops generalizing s with
  | nil => trivial
  | cons op rest ih =>
      obtain ⟨hallowed, hr, hrest⟩ := h
      exact ⟨hallowed, fun r hmem => hEF r (hr r hmem), fun s' hs' => ih (hrest s' hs')⟩

theorem Sound.of_append {done rest : List StorageOperation} (h : Sound E s (done ++ rest)) :
    Sound E s done := by
  induction done generalizing s with
  | nil => trivial
  | cons op done ih =>
      obtain ⟨hallowed, hr, hrest⟩ := h
      exact ⟨hallowed, hr, fun s' hs' => ih (hrest s' hs')⟩

/-- A new file mirrors no documents. -/
theorem mirrors_openFile {path : String} {durability : Durability} {notes : List LogEntry}
    (h : openFile path durability [] = .ok (s, notes)) : Mirrors E s [] := by
  cases h
  exact ⟨.nil, .nil, _, .empty, rfl, Replayed.endsLine_nil, rfl, rfl, .nil⟩

end Runs

/-- **A file holds what memory holds.** From an empty file, after each of the operations of a run,
the storage has the documents that one in memory has after the same changes, and replaying what was
appended to the journal gives them, with as many records as the journal counts. -/
theorem performAll_openFile {path : String} {durability : Durability} {s : Storage}
    {notes : List LogEntry} (hopen : openFile path durability [] = .ok (s, notes))
    {ops : List StorageOperation} (hops : Sound (fun a b => a.equal b = true) s ops)
    {done : List StorageOperation} (hdone : done <+: ops) :
    ∃ s' docs j r, s.performAll done = .ok s' ∧
      (inMemory []).performAll (done.filter (·.isChange)) = .ok (inMemory docs) ∧
      EqualDocuments s'.documents docs ∧ s'.journal = some j ∧
      Replayed.ofBytes j.contents = .ok r ∧ EqualDocuments r.documents s'.documents ∧
      EqualDocuments r.documents docs ∧ r.records = j.records := by
  obtain ⟨rest, rfl⟩ := hdone
  have hsound : Sound Document.Alike s done := hops.of_append.mono fun r => .alike
  obtain ⟨s', docs, hs', hdocs, hmirrors⟩ :=
    (mirrors_openFile hopen).performAll Document.likeness_alike hsound
  obtain ⟨j, r, hj, _, hreplay, hrecords, hreplayed⟩ := hmirrors.journal
  have hequal : ∀ {as bs}, List.Forall₂ Document.Alike as bs → EqualDocuments as bs :=
    fun h => h.imp fun _ _ => Document.Alike.equal
  rw [← performAll_inMemory_filter] at hdocs
  exact ⟨s', docs, j, r, hs', hdocs, hequal hmirrors.documents, hj, hreplay, hequal hreplayed,
    hequal (Document.likeness_alike.forall₂_trans hreplayed hmirrors.documents), hrecords⟩

end Storage

/-! ## A run -/

/-- A document with a name. -/
def Document.pet (id : DocumentId) (name : String) : Document := .make id [("name", .string name)]

/-- Two pets are stored, one of them gets another name, the other is removed. -/
def StorageOperation.pets : List StorageOperation :=
  [.insert (.pet (.int 1) "Rex"), .insert (.pet (.generated "b") "Tom"),
    .replace 0 (.pet (.int 1) "Max"), .compact, .remove 1, .flush, .reopen .safe]

namespace Storage

/-- A new file for pets. -/
def newPets : Storage := { documents := [], journal := some (.ofFile "pets" .manual [] 0) }

theorem decodes_of_reread {r r' : JournalRecord} {j : Json} (hread : r.toJson.reread? = some j)
    (hdepth : j.depth ≤ Json.maxDepth) (hr : JournalRecord.ofJson? j = some r')
    (hequal : JournalRecord.Alike (fun a b => a.equal b = true) r' r) :
    r.Decodes fun a b => a.equal b = true :=
  ⟨r', JournalRecord.ofLine_line_eq_ok.2 ⟨j, hread, hdepth, hr⟩, hequal⟩

theorem sound_pets : Sound (fun a b => a.equal b = true) newPets StorageOperation.pets := by
  refine ⟨rfl, ?_, ?_⟩
  · rintro _ (_ | ⟨_, ⟨⟩⟩)
    exact decodes_of_reread rfl (by decide) rfl (.insert rfl)
  rintro _ ⟨⟩
  refine ⟨rfl, ?_, ?_⟩
  · rintro _ (_ | ⟨_, ⟨⟩⟩)
    exact decodes_of_reread rfl (by decide) rfl (.insert rfl)
  rintro _ ⟨⟩
  refine ⟨?_, ?_, ?_⟩
  · rintro _ ⟨⟩
    rfl
  · rintro _ (_ | ⟨_, ⟨⟩⟩)
    exact decodes_of_reread rfl (by decide) rfl (.replace rfl rfl)
  rintro _ ⟨⟩
  -- Compacting writes a record for each of the two.
  refine ⟨trivial, ?_, ?_⟩
  · rintro _ (_ | ⟨_, _ | ⟨_, ⟨⟩⟩⟩)
    · exact decodes_of_reread rfl (by decide) rfl (.insert rfl)
    · exact decodes_of_reread rfl (by decide) rfl (.insert rfl)
  rintro _ ⟨⟩
  refine ⟨trivial, ?_, ?_⟩
  · rintro _ (_ | ⟨_, ⟨⟩⟩)
    exact decodes_of_reread rfl (by decide) rfl (.remove rfl)
  rintro _ ⟨⟩
  refine ⟨trivial, ?_, ?_⟩
  · rintro _ ⟨⟩
  rintro _ ⟨⟩
  refine ⟨trivial, ?_, fun _ _ => trivial⟩
  rintro _ ⟨⟩

/-- The pets in the file are those in memory. -/
theorem performAll_openFile_pets :
    openFile "pets" .manual [] = .ok (newPets, [openNote "pets" .empty]) ∧
      Sound (fun a b => a.equal b = true) newPets StorageOperation.pets ∧
      ∃ s' docs j r, newPets.performAll StorageOperation.pets = .ok s' ∧
        (inMemory []).performAll (StorageOperation.pets.filter (·.isChange)) =
          .ok (inMemory docs) ∧
        EqualDocuments s'.documents docs ∧ s'.journal = some j ∧
        Replayed.ofBytes j.contents = .ok r ∧ EqualDocuments r.documents s'.documents ∧
        EqualDocuments r.documents docs ∧ r.records = j.records :=
  ⟨rfl, sound_pets, performAll_openFile rfl sound_pets List.prefix_rfl⟩

end Storage

end DocStore
