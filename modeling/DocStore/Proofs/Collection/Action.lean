import DocStore.Collection.Request
import DocStore.Proofs.Document
import DocStore.Proofs.Except

/-!
# What actions do

`Action.Yields a c r c'` says that the action `a` on the collection `c` ends with the result `r` and
leaves the collection `c'`, whatever was logged before. There is one rule for each way of building
actions and one statement for each action on single documents; the operations on collections are
taken apart with them, and none of their proofs looks into the monad again. Searches look at a
collection and leave it as it is, whether they give something or fail: `Looks`.
-/

set_option autoImplicit false

namespace DocStore

namespace Action

variable {α β : Type}

/-- An action on a collection ends with a result and leaves a collection. -/
def Yields (a : Action α) (c : Collection) (r : Result α) (c' : Collection) : Prop :=
  ∀ notes, ∃ notes',
    a.run.run { collection := c, notes } = (r, { collection := c', notes := notes' })

theorem Yields.runOn {a : Action α} {c c' : Collection} {r : Result α} (h : Yields a c r c') :
    (runOn c a).1 = r ∧ (runOn c a).2.collection = c' := by
  obtain ⟨notes', h⟩ := h []
  rw [Action.runOn, h]
  exact ⟨rfl, rfl⟩

theorem Yields.outcome {a : Action α} {c c' : Collection} {r : Result α} (h : Yields a c r c') :
    outcome c a = (r, c') :=
  Prod.ext h.runOn.1 h.runOn.2

/-- An action does one thing only. -/
theorem Yields.unique {a : Action α} {c c₁ c₂ : Collection} {r₁ r₂ : Result α}
    (h₁ : Yields a c r₁ c₁) (h₂ : Yields a c r₂ c₂) : r₁ = r₂ ∧ c₁ = c₂ :=
  ⟨h₁.runOn.1.symm.trans h₂.runOn.1, h₁.runOn.2.symm.trans h₂.runOn.2⟩

/-- The result may be named in another way. -/
theorem Yields.of_eq {a : Action α} {c c' : Collection} {r r' : Result α} (h : Yields a c r c')
    (hr : r = r') : Yields a c r' c' := hr ▸ h

/-! ## Rules -/

theorem yields_pure (a : α) (c : Collection) : Yields (pure a) c (.ok a) c :=
  fun notes => ⟨notes, rfl⟩

theorem yields_throw (e : Error) (c : Collection) : Yields (throw e : Action α) c (.error e) c :=
  fun notes => ⟨notes, rfl⟩

theorem Yields.bind {a : Action α} {f : α → Action β} {c c' c'' : Collection} {x : α}
    {r : Result β} (ha : Yields a c (.ok x) c') (hf : Yields (f x) c' r c'') :
    Yields (a >>= f) c r c'' := by
  intro notes
  obtain ⟨notes', ha⟩ := ha notes
  obtain ⟨notes'', hf⟩ := hf notes'
  refine ⟨notes'', ?_⟩
  rw [ExceptT.run_bind, StateT.run_bind, ha]
  exact hf

theorem Yields.bind_error {a : Action α} {f : α → Action β} {c c' : Collection} {e : Error}
    (ha : Yields a c (.error e) c') : Yields (a >>= f) c (.error e) c' := by
  intro notes
  obtain ⟨notes', ha⟩ := ha notes
  refine ⟨notes', ?_⟩
  rw [ExceptT.run_bind, StateT.run_bind, ha]
  rfl

/-- An action whose value does not count. -/
theorem Yields.discard {a : Action α} {c c' : Collection} {r : Result α} (h : Yields a c r c') :
    Yields (Functor.discard a) c (r.map fun _ => ()) c' := by
  intro notes
  obtain ⟨notes', h⟩ := h notes
  refine ⟨notes', ?_⟩
  change (ExceptT.run (a >>= fun _ => pure ())).run _ = _
  rw [ExceptT.run_bind, StateT.run_bind, h]
  cases r <;> rfl

theorem yields_current (c : Collection) : Yields current c (.ok c) c :=
  fun notes => ⟨notes, rfl⟩

theorem yields_change (f : Collection → Collection) (c : Collection) :
    Yields (change f) c (.ok ()) (f c) :=
  fun notes => ⟨notes, rfl⟩

theorem yields_logAll (more : List LogEntry) (c : Collection) :
    Yields (logAll more) c (.ok ()) c :=
  fun notes => ⟨notes ++ more, rfl⟩

theorem yields_log (level : LogLevel) (message : String) (c : Collection) :
    Yields (log level message) c (.ok ()) c :=
  yields_logAll _ c

theorem yields_logAbout (level : LogLevel) (what outcome : String) (c : Collection) :
    Yields (logAbout level what outcome) c (.ok ()) c :=
  (yields_current c).bind (yields_log _ _ c)

theorem yields_ofResult {x r : Result α} (h : x = r) (c : Collection) :
    Yields (ofResult x) c r c := by
  subst h
  cases x with
  | ok a => exact yields_pure a c
  | error e => exact yields_throw e c

/-- A failure that is caught leaves what was done before it. -/
theorem Yields.attempt {a : Action α} {c c' : Collection} {r : Result α} (h : Yields a c r c') :
    Yields (attempt a) c (.ok r) c' := by
  intro notes
  obtain ⟨notes', h⟩ := h notes
  refine ⟨notes', ?_⟩
  change (ExceptT.run (ExceptT.lift a.run)).run _ = _
  rw [ExceptT.run_lift, StateT.run_map, h]
  rfl

theorem yields_keepStorage (storage : Storage) (notes : List LogEntry) (c : Collection) :
    Yields (keepStorage storage notes) c (.ok ()) { c with storage } :=
  (yields_change _ c).bind (yields_logAll _ _)

/-! ## Single documents -/

end Action

namespace Collection

/-- What checking a document comes to: a violation is an error unless it is only warned of. -/
def checked (c : Collection) (doc : Document) (touched : Option (List String)) : Result Unit :=
  match c.verdict doc touched with
  | .ok () => .ok ()
  | .error e =>
    match c.options.action with
    | .error => .error (.validation e)
    | .warn => .ok ()

/-- The new document that a value stands for, if it may be inserted beside documents with the given
ids. -/
def prepared (c : Collection) (taken : List DocumentId) (v : Value) : Result Document :=
  (Document.ofValue v c.source).1.bind fun doc =>
    if doc.id.isIn taken then .error (.duplicateId doc.id)
    else (c.checked doc none).map fun _ => doc

/-- What was checked before a document counts as prepared. -/
theorem prepared_eq_ok {c : Collection} {taken : List DocumentId} {v : Value} {doc : Document}
    (h : c.prepared taken v = .ok doc) :
    (Document.ofValue v c.source).1 = .ok doc ∧ doc.id.isIn taken = false ∧
      c.checked doc none = .ok () := by
  unfold prepared at h
  obtain ⟨d, hvalue, h⟩ := bind_eq_ok.1 h
  split at h
  · cases h
  · rename_i hnew
    obtain ⟨_, hchecked, rfl⟩ := map_eq_ok.1 h
    exact ⟨hvalue, Bool.eq_false_iff.2 hnew, hchecked⟩

/-- The collection once the id of a new document has been drawn. -/
def drawn (c : Collection) (v : Value) : Collection :=
  { c with source := (Document.ofValue v c.source).2 }

/-- The collection with one more document. -/
def inserted (c : Collection) (doc : Document) : Collection :=
  { c with storage := (c.storage.insert doc).1, ids := doc.id :: c.ids }

/-- The collection with another document at a position. -/
def replaced (c : Collection) (position : Nat) (doc : Document) : Collection :=
  match c.documents[position]? with
  | none => c
  | some old =>
    { c with storage :=
        (c.storage.change (.replace old.id doc) (c.documents.set position doc)).1 }

/-- The collection without the document at a position. -/
def removed (c : Collection) (position : Nat) : Collection :=
  match c.documents[position]? with
  | none => c
  | some old =>
    { c with
      storage := (c.storage.change (.remove old.id) (c.documents.eraseIdx position)).1
      ids := old.id.remove c.ids }

@[simp] theorem documents_drawn (c : Collection) (v : Value) :
    (c.drawn v).documents = c.documents := rfl

@[simp] theorem ids_drawn (c : Collection) (v : Value) : (c.drawn v).ids = c.ids := rfl

@[simp] theorem documents_inserted (c : Collection) (doc : Document) :
    (c.inserted doc).documents = c.documents ++ [doc] := by
  simp [documents, inserted, Storage.insert]

@[simp] theorem documents_replaced (c : Collection) (position : Nat) (doc : Document) :
    (c.replaced position doc).documents = c.documents.set position doc := by
  unfold replaced
  split
  · rename_i h
    rw [List.set_eq_of_length_le (List.getElem?_eq_none_iff.1 h)]
  · simp [documents]

@[simp] theorem documents_removed (c : Collection) (position : Nat) :
    (c.removed position).documents = c.documents.eraseIdx position := by
  unfold removed
  split
  · rename_i h
    rw [List.eraseIdx_of_length_le (List.getElem?_eq_none_iff.1 h)]
  · simp [documents]

end Collection

namespace Action

open Collection

theorem yields_check (doc : Document) (touched : Option (List String)) (c : Collection) :
    Yields (check doc touched) c (c.checked doc touched) c := by
  refine (yields_current c).bind ?_
  unfold checked
  cases hv : c.verdict doc touched with
  | ok u => exact yields_pure () c
  | error e =>
      cases ha : c.options.action with
      | error => exact yields_throw _ c
      | warn => exact yields_log _ _ c

theorem yields_toDocument (v : Value) (c : Collection) :
    Yields (toDocument v) c (Document.ofValue v c.source).1 (c.drawn v) :=
  (yields_current c).bind ((yields_change _ c).bind (yields_ofResult rfl _))

theorem yields_prepare (taken : List DocumentId) (v : Value) (c : Collection) :
    Yields (prepare taken v) c (c.prepared taken v) (c.drawn v) := by
  have hdoc := yields_toDocument v c
  unfold prepared
  cases hv : (Document.ofValue v c.source).1 with
  | error e => exact (hdoc.of_eq hv).bind_error
  | ok doc =>
      refine (hdoc.of_eq hv).bind ?_
      have hcheck := yields_check doc none (c.drawn v)
      simp only [Except.bind]
      split
      · exact (yields_throw _ _).bind_error
      · -- The check does not read where ids are drawn.
        change Yields _ _ ((c.drawn v).checked doc none |>.map fun _ => doc) _
        cases hc : (c.drawn v).checked doc none with
        | error e => exact (hcheck.of_eq hc).bind_error
        | ok u => exact (hcheck.of_eq hc).bind (yields_pure doc _)

theorem yields_commit (doc : Document) (c : Collection) :
    Yields (commit doc) c (.ok ()) (c.inserted doc) :=
  (yields_current c).bind ((yields_keepStorage _ _ c).bind (yields_change _ _))

theorem yields_replaceAt {position : Nat} {c : Collection} (doc : Document)
    (h : position < c.documents.length) :
    Yields (replaceAt position doc) c (.ok ()) (c.replaced position doc) := by
  obtain ⟨old, hold⟩ : ∃ old, c.documents[position]? = some old :=
    ⟨_, List.getElem?_eq_getElem h⟩
  have hreplace : c.storage.replace position doc =
      .ok (c.storage.change (.replace old.id doc) (c.documents.set position doc)) := by
    unfold documents at hold
    simp [Storage.replace, Storage.at?, hold, documents, bind, Except.bind, pure, Except.pure]
  refine (yields_current c).bind ?_
  refine (yields_ofResult hreplace c).bind ?_
  rw [replaced, hold]
  exact yields_keepStorage _ _ c

theorem yields_removeAt {position : Nat} {c : Collection} {old : Document}
    (h : c.documents[position]? = some old) :
    Yields (removeAt position) c (.ok old) (c.removed position) := by
  have hremove : c.storage.remove position = .ok (old,
      c.storage.change (.remove old.id) (c.documents.eraseIdx position)) := by
    unfold documents at h
    simp [Storage.remove, Storage.at?, h, documents, bind, Except.bind, pure, Except.pure]
  refine (yields_current c).bind ?_
  refine (yields_ofResult hremove c).bind ?_
  rw [removed, h]
  exact (yields_keepStorage _ _ c).bind ((yields_change _ _).bind (yields_pure old _))

end Action

/-! ## Searching -/

namespace Action

variable {α β : Type}

/-- An action that leaves every collection as it is. -/
def Looks (a : Action α) : Prop := ∀ c, ∃ r, Yields a c r c

theorem Looks.bind {a : Action α} {f : α → Action β} (ha : Looks a) (hf : ∀ x, Looks (f x)) :
    Looks (a >>= f) := by
  intro c
  obtain ⟨r, ha⟩ := ha c
  cases r with
  | error e => exact ⟨.error e, ha.bind_error⟩
  | ok x =>
      obtain ⟨r, hf⟩ := hf x c
      exact ⟨r, ha.bind hf⟩

theorem looks_pure (a : α) : Looks (pure a) := fun c => ⟨_, yields_pure a c⟩

theorem looks_throw (e : Error) : Looks (throw e : Action α) := fun c => ⟨_, yields_throw e c⟩

theorem looks_current : Looks current := fun c => ⟨_, yields_current c⟩

theorem looks_logAll (notes : List LogEntry) : Looks (logAll notes) :=
  fun c => ⟨_, yields_logAll notes c⟩

theorem looks_logAbout (level : LogLevel) (what outcome : String) :
    Looks (logAbout level what outcome) := fun c => ⟨_, yields_logAbout level what outcome c⟩

theorem looks_ofResult (r : Result α) : Looks (ofResult r) := fun c => ⟨_, yields_ofResult rfl c⟩

end Action

namespace Collection

open DocStore.Action

theorem looks_find (f : Filter) (o : FindOptions) : Looks (find f o) := by
  refine (looks_ofResult _).bind fun keys => (looks_ofResult _).bind fun projection => ?_
  have hsearch : Looks (do
      let c ← current
      if o.maxTime == some 0 && !c.documents.isEmpty then
        logAbout .debug "find on" " timed out after 0 matches"
        throw .timeout
      let docs := (c.found f).map Document.toValue
      logAbout .trace "find on" s!": {docs.length} matches"
      return arrange keys projection o docs) := by
    refine looks_current.bind fun c => ?_
    split
    · exact (looks_logAbout _ _ _).bind fun _ => (looks_throw _).bind fun _ =>
        (looks_logAbout _ _ _).bind fun _ => looks_pure _
    · exact (looks_logAbout _ _ _).bind fun _ => looks_pure _
  cases o.hint with
  | none => exact hsearch
  | some hint => exact (looks_logAbout _ _ _).bind fun _ => hsearch

/-- **What a search gives** that is not given up at once. -/
theorem yields_find {f : Filter} {o : FindOptions} {keys : List SortKey}
    {projection : Option Projection} (hkeys : o.sortKeys = .ok keys)
    (hprojection : o.parsedProjection = .ok projection) (htime : o.maxTime ≠ some 0)
    (c : Collection) :
    Yields (find f o) c (.ok (arrange keys projection o ((c.found f).map Document.toValue))) c := by
  have htime : (o.maxTime == some 0) = false := beq_false_of_ne htime
  refine (yields_ofResult hkeys c).bind ((yields_ofResult hprojection c).bind ?_)
  have hsearch : Yields (do
      let c ← current
      if o.maxTime == some 0 && !c.documents.isEmpty then
        logAbout .debug "find on" " timed out after 0 matches"
        throw .timeout
      let docs := (c.found f).map Document.toValue
      logAbout .trace "find on" s!": {docs.length} matches"
      return arrange keys projection o docs) c
      (.ok (arrange keys projection o ((c.found f).map Document.toValue))) c := by
    refine (yields_current c).bind ?_
    rw [htime, Bool.false_and]
    exact (yields_logAbout _ _ _ c).bind (yields_pure _ c)
  cases o.hint with
  | none => exact hsearch
  | some hint => exact (yields_logAbout _ _ _ c).bind hsearch

theorem looks_findOne (f : Filter) : Looks (findOne f) :=
  looks_current.bind fun _ => looks_pure _

theorem looks_count (f : Filter) : Looks (count f) :=
  looks_current.bind fun _ => looks_pure _

theorem looks_aggregate (p : Pipeline) : Looks (aggregate p) := by
  refine looks_current.bind fun c => (looks_logAbout _ _ _).bind fun _ =>
    (looks_logAll _).bind fun _ => (looks_ofResult _).bind fun out => ?_
  split
  · exact (looks_logAbout _ _ _).bind fun _ => looks_pure _
  · exact looks_pure _

end Collection

namespace Request

/-- What a search gives whose filter is accepted. -/
theorem answer_find {filter : Json} {f : Filter} {o : FindOptions} {keys : List SortKey}
    {projection : Option Projection} {cache cache' : PatternCache}
    (hread : (Filter.read filter : CachedReading Filter).run.run cache = (.ok f, cache'))
    (hkeys : o.sortKeys = .ok keys) (hprojection : o.parsedProjection = .ok projection)
    (htime : o.maxTime ≠ some 0) (c : Collection) :
    answer (find filter o) cache c =
      .ok (Collection.arrange keys projection o ((c.found f).map Document.toValue)) := by
  have hrun : ((find filter o).run.run cache).1 = .ok (Collection.find f o) := by
    rw [find, ExceptT.run_bind, StateT.run_bind, hread]
    rfl
  unfold answer
  rw [hrun]
  exact congrArg Prod.fst (Collection.yields_find hkeys hprojection htime c).outcome

end Request

end DocStore
