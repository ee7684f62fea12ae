import DocStore.Pipeline.Reader
import DocStore.Proofs.Expr.Failure
import DocStore.Proofs.Value.Write

/-!
# What ends a pipeline

Errors that concern single documents are recorded, and the run goes on: `Run.fails_keepAll`. A run
ends in an error of the configuration, or where a computed field is written at an index that lies
too far beyond the end of an array: `Pipeline.fails_run`.
-/

set_option autoImplicit false

namespace DocStore

variable {α β : Type} {P : Error → Prop}

/-! ## Runs -/

namespace Run

/-- The run ends in errors of a kind only, and records errors of single documents only. -/
structure Fails (P : Error → Prop) (r : Run α) : Prop where
  result : FailsOnly P r.result
  failures : ∀ f ∈ r.failures, f.error.isDocumentLocal = true

theorem fails_ok (a : α) : Fails P (ok a) := ⟨failsOnly_ok a, List.forall_mem_nil _⟩

theorem fails_fail {e : Error} (h : P e) : Fails P (fail e : Run α) :=
  ⟨failsOnly_error h, List.forall_mem_nil _⟩

theorem fails_note (level : LogLevel) (message : String) : Fails P (note level message) :=
  ⟨failsOnly_ok (), List.forall_mem_nil _⟩

theorem fails_drop (index : Nat) (stage : String) {e : Error} (h : e.isDocumentLocal = true) :
    Fails P (drop index stage e) :=
  ⟨failsOnly_ok (), List.forall_mem_singleton.2 h⟩

theorem Fails.mono {Q : Error → Prop} {r : Run α} (h : Fails P r) (hsub : ∀ e, P e → Q e) :
    Fails Q r := ⟨h.result.mono hsub, h.failures⟩

theorem Fails.bind {r : Run α} {next : α → Run β} (h : Fails P r)
    (hnext : ∀ a, Fails P (next a)) : Fails P (r >>= next) := by
  change Fails P (r.andThen next)
  unfold andThen
  split
  · rename_i e he
    exact ⟨failsOnly_error (h.result e he), h.failures⟩
  · rename_i a _
    exact ⟨(hnext a).result, List.forall_mem_append.2 ⟨h.failures, (hnext a).failures⟩⟩

theorem fails_traced {index : Nat} {docs : List Value} {stage : Nat → List Value → Run (List Value)}
    (h : Fails P (stage index docs)) (name : String) :
    Fails P (traced index name docs stage) :=
  h.bind fun out => (fails_note _ _).bind fun _ => fails_ok out

/-- **Where single documents are kept**, only errors of another kind end the run. -/
theorem fails_keepAll (index : Nat) (stage : String) {results : List (Result α)}
    (h : ∀ r ∈ results, FailsLocallyOr P r) :
    Fails P (keepAll index stage results) := by
  induction results with
  | nil => exact fails_ok []
  | cons r rest ih =>
      obtain ⟨hr, hrest⟩ := List.forall_mem_cons.1 h
      cases r with
      | ok a => exact (ih hrest).bind fun more => fails_ok (a :: more)
      | error e =>
          rw [keepAll]
          split
          · rename_i hlocal
            exact (fails_drop index stage hlocal).bind fun _ => ih hrest
          · rename_i hlocal
            exact fails_fail ((hr e rfl).resolve_left hlocal)

/-- A stage that does the same with each document. -/
theorem fails_keepAll_map (index : Nat) (stage : String) {f : Value → Result α}
    (h : ∀ doc, FailsLocallyOr P (f doc)) (docs : List Value) :
    Fails P (keepAll index stage (docs.map f)) :=
  fails_keepAll index stage (List.forall_mem_map.2 fun doc _ => h doc)

end Run

open Run

/-! ## Computed fields -/

theorem failsLocallyOr_setPath?_of_mem {paths : List String} {path : String} (h : path ∈ paths)
    (m : Fields Value) (v : Value) : FailsLocallyOr (·.PastEnd paths) (Fields.setPath? m path v) :=
  (Fields.failsLocallyOr_setPath? m path v).mono fun _ he => he.imp_right (⟨path, h, ·⟩)

namespace ProjectStage

/-- The paths at which a stage writes computed values. -/
def computedPaths : ProjectStage → List String
  | drop _ _ => []
  | build _ fields => fields.filterMap fun f =>
    match f.2 with
    | .kept => none
    | .computed _ => some f.1

theorem failsLocallyOr_addField {paths : List String} {path : String} {field : BuiltField}
    (h : ∀ e, field = .computed e → path ∈ paths) (source out : Fields Value) :
    FailsLocallyOr (·.PastEnd paths) (addField source out path field) := by
  cases field with
  | kept =>
      rw [addField]
      split
      · exact failsOnly_ok _
      · exact failsOnly_ok _
  | computed e =>
      refine (Expr.failsLocally_eval? _ e).orElse.bind fun v => ?_
      split
      · exact failsLocallyOr_setPath?_of_mem (h e rfl) out _
      · exact failsOnly_ok _

theorem failsLocallyOr_addFields {paths : List String} {fields : List (String × BuiltField)}
    (h : ∀ f ∈ fields, ∀ e, f.2 = .computed e → f.1 ∈ paths) (source out : Fields Value) :
    FailsLocallyOr (·.PastEnd paths) (addFields source out fields) := by
  induction fields generalizing out with
  | nil => exact failsOnly_ok out
  | cons f rest ih =>
      obtain ⟨hf, hrest⟩ := List.forall_mem_cons.1 h
      exact (failsLocallyOr_addField hf source out).bind fun out => ih hrest out

theorem failsLocallyOr_apply (s : ProjectStage) (doc : Value) :
    FailsLocallyOr (·.PastEnd s.computedPaths) (s.apply doc) := by
  unfold apply
  split
  · rename_i source
    cases s with
    | drop withoutId paths => exact failsOnly_ok _
    | build withId fields =>
        have hpaths : ∀ f ∈ fields, ∀ e, f.2 = .computed e →
            f.1 ∈ computedPaths (build withId fields) :=
          fun f hf e he => List.mem_filterMap.2 ⟨f, hf, by rw [he]⟩
        exact (failsLocallyOr_addFields hpaths source _).bind fun _ => failsOnly_ok _
  · exact failsOnly_ok _

end ProjectStage

namespace ComputedFields

theorem failsLocally_values (fields : ComputedFields) (doc : Value) :
    FailsLocally (fields.values doc) :=
  (failsOnly_mapM fun f _ => Expr.failsLocally_eval? doc f.2).bind fun _ => failsOnly_ok _

theorem failsLocallyOr_write {paths : List String} {computed : List (String × Value)}
    (h : ∀ f ∈ computed, f.1 ∈ paths) (m : Fields Value) :
    FailsLocallyOr (·.PastEnd paths) (write m computed) := by
  induction computed generalizing m with
  | nil => exact failsOnly_ok m
  | cons f rest ih =>
      obtain ⟨hf, hrest⟩ := List.forall_mem_cons.1 h
      exact (failsLocallyOr_setPath?_of_mem hf m f.2).bind fun m => ih hrest m

/-- Values are computed for the paths of the fields only. -/
theorem mem_paths_of_values {fields : ComputedFields} {doc : Value}
    {computed : List (String × Value)} (h : fields.values doc = .ok computed) :
    ∀ f ∈ computed, f.1 ∈ fields.map (·.1) := by
  obtain ⟨vs, -, h⟩ := bind_eq_ok.1 h
  cases h
  intro f hf
  obtain ⟨⟨field, v⟩, hmem, hv⟩ := List.mem_filterMap.1 hf
  obtain ⟨w, -, rfl⟩ := Option.map_eq_some_iff.1 hv
  exact List.mem_map_of_mem (List.of_mem_zip hmem).1

theorem failsLocallyOr_apply (fields : ComputedFields) (doc : Value) :
    FailsLocallyOr (·.PastEnd (fields.map (·.1))) (fields.apply doc) := by
  refine FailsOnly.bind_of_eq (failsLocally_values fields doc).orElse fun computed hcomputed => ?_
  split
  · exact (failsLocallyOr_write (mem_paths_of_values hcomputed) _).bind fun _ => failsOnly_ok _
  · exact failsOnly_ok _

end ComputedFields

/-! ## Steps -/

/-- Unwinding writes where the path leads to an array already, and nothing stops it. -/
theorem UnwindStage.ok_of_mem_unwind {s : UnwindStage} {doc : Value} {r : Result Value}
    (h : r ∈ s.unwind doc) : ∃ v, r = .ok v := by
  have hwhole {r : Result Value} (h : r ∈ if s.keepEmpty then [.ok doc] else []) :
      ∃ v, r = .ok v := by
    split at h
    · exact ⟨doc, List.mem_singleton.1 h⟩
    · cases h
  unfold unwind at h
  dsimp only at h
  split at h
  · exact hwhole h
  · exact hwhole h
  · exact hwhole h
  · rename_i items hpath
    obtain ⟨item, -, rfl⟩ := List.mem_map.1 h
    unfold place
    split
    · rename_i m
      obtain ⟨m', hset⟩ := Fields.exists_setPath? hpath item
      exact ⟨.object m', by rw [hset]; rfl⟩
    · exact ⟨_, rfl⟩
  · exact ⟨doc, List.mem_singleton.1 h⟩

theorem GroupStage.failsLocally_keyed (id : Expr) (accs : Accumulators) (doc : Value) :
    FailsLocally (keyed id accs doc) :=
  (Expr.failsLocally_eval id doc).bind fun _ =>
    (failsOnly_mapM fun a _ => Expr.failsLocally_eval? doc a.2.input).bind fun _ => failsOnly_ok _

theorem BucketStage.failsLocallyOr_place (s : BucketStage) (doc : Value) :
    FailsLocallyOr (·.isConfig = true) (s.place doc) := by
  refine (GroupStage.failsLocally_keyed _ _ doc).orElse.bind fun keyed => ?_
  dsimp only
  split
  · exact failsOnly_error (.inr rfl)
  · exact failsOnly_ok _

namespace Step

/-- The paths at which a step writes computed values. -/
def computedPaths : Step → List String
  | project s => s.computedPaths
  | addFields fields => fields.map (·.1)
  | _ => []

/-- **What ends a step.** -/
theorem fails_run (s : Step) (index : Nat) (docs : List Value) :
    Fails (fun e => e.isConfig = true ∨ e.PastEnd s.computedPaths) (s.run index docs) := by
  cases s with
  | filter f => exact fails_ok _
  | sort keys => exact fails_ok _
  | limit n => exact fails_ok _
  | skip n => exact fails_ok _
  | project s =>
      exact fails_keepAll_map index _
        (fun doc => (s.failsLocallyOr_apply doc).mono fun _ => Or.imp_right .inr) docs
  | addFields fields =>
      exact fails_keepAll_map index _
        (fun doc => (fields.failsLocallyOr_apply doc).mono fun _ => Or.imp_right .inr) docs
  | group s =>
      refine (fails_keepAll_map index _
        (fun doc => (GroupStage.failsLocally_keyed _ _ doc).orElse) docs).bind fun keyed => ?_
      exact (fails_note _ _).bind fun _ => fails_ok _
  | unwind s =>
      refine fails_keepAll index _ fun r hr => ?_
      obtain ⟨doc, -, hr⟩ := List.mem_flatMap.1 hr
      obtain ⟨v, rfl⟩ := UnwindStage.ok_of_mem_unwind hr
      exact failsOnly_ok v
  | bucket s =>
      refine (fails_keepAll_map index _
        (fun doc => (s.failsLocallyOr_place doc).mono fun _ => Or.imp_right .inl) docs).bind
          fun placed => ?_
      exact (fails_note _ _).bind fun _ => fails_ok _
  | bucketAuto s =>
      refine (fails_keepAll_map index _
        (fun doc => (GroupStage.failsLocally_keyed _ _ doc).orElse) docs).bind fun keyed => ?_
      split
      · exact fails_ok _
      · split
        · exact fails_fail (.inl rfl)
        · exact (fails_note _ _).bind fun _ => fails_ok _
  | count field => exact fails_ok _

end Step

/-! ## Stages -/

namespace Stage

/-- The paths at which a stage writes computed values. -/
def computedPaths : Stage → List String
  | step s => s.computedPaths
  | facet parts => parts.flatMap fun p => p.2.flatMap Step.computedPaths

theorem fails_runSteps {paths : List String} (index : Nat) {steps : List Step}
    (hpaths : ∀ s ∈ steps, s.computedPaths ⊆ paths) (docs : List Value) :
    Fails (fun e => e.isConfig = true ∨ e.PastEnd paths) (runSteps index steps docs) := by
  induction steps generalizing index docs with
  | nil => exact fails_ok docs
  | cons s rest ih =>
      obtain ⟨hs, hrest⟩ := List.forall_mem_cons.1 hpaths
      have hstep := (s.fails_run index docs).mono fun _ => Or.imp_right (Error.PastEnd.mono hs)
      exact (fails_traced hstep s.name).bind fun out => ih (index + 1) hrest out

/-- What the parts of a stage fail with, it fails with. -/
theorem fails_gather (index : Nat) {parts : List (String × Run (List Value))}
    (h : ∀ p ∈ parts, Fails P p.2) : Fails P (gather index parts) := by
  refine ⟨?_, fun f hf => ?_⟩
  · exact (failsOnly_mapEntriesM fun p hp => (h p hp).result).bind fun _ => failsOnly_ok _
  · obtain ⟨p, hp, hf⟩ := List.mem_flatMap.1 hf
    obtain ⟨g, hg, rfl⟩ := List.mem_map.1 hf
    exact (h p hp).failures g hg

theorem fails_run (s : Stage) (index : Nat) (docs : List Value) :
    Fails (fun e => e.isConfig = true ∨ e.PastEnd s.computedPaths) (s.run index docs) := by
  cases s with
  | step s => exact s.fails_run index docs
  | facet parts =>
      refine fails_gather index (List.forall_mem_map.2 fun p hp => ?_)
      refine fails_runSteps 0 (fun s hs path hpath => ?_) docs
      exact List.mem_flatMap.2 ⟨p, hp, List.mem_flatMap.2 ⟨s, hs, hpath⟩⟩

end Stage

/-! ## Pipelines -/

namespace Pipeline

/-- The paths at which a pipeline writes computed values. -/
def computedPaths (p : Pipeline) : List String := p.flatMap Stage.computedPaths

theorem fails_runFrom {paths : List String} (index : Nat) {p : Pipeline}
    (hpaths : ∀ s ∈ p, s.computedPaths ⊆ paths) (docs : List Value) :
    Fails (fun e => e.isConfig = true ∨ e.PastEnd paths) (runFrom index p docs) := by
  induction p generalizing index docs with
  | nil => exact fails_ok docs
  | cons s rest ih =>
      obtain ⟨hs, hrest⟩ := List.forall_mem_cons.1 hpaths
      have hstage := (s.fails_run index docs).mono fun _ => Or.imp_right (Error.PastEnd.mono hs)
      exact (fails_traced hstage s.name).bind fun out => ih (index + 1) hrest out

/-- **Every run gives documents or ends in an error of the configuration**, unless a computed field
is written at an index that lies too far beyond the end of an array. All that is recorded on the way
concerns single documents. -/
theorem run_ok_or_config (p : Pipeline) (docs : List Value) :
    ((∃ out, (p.run docs).result = .ok out) ∨
      ∃ e, (p.run docs).result = .error e ∧
        (e.isConfig = true ∨ e.PastEnd p.computedPaths)) ∧
      ∀ f ∈ (p.run docs).failures, f.error.isDocumentLocal = true := by
  have hpaths : ∀ s ∈ p, s.computedPaths ⊆ p.computedPaths :=
    fun s hs path hpath => List.mem_flatMap.2 ⟨s, hs, hpath⟩
  have hrun : Fails (fun e => e.isConfig = true ∨ e.PastEnd p.computedPaths) (p.run docs) :=
    fails_runFrom 0 hpaths docs
  refine ⟨?_, hrun.failures⟩
  cases hresult : (p.run docs).result with
  | ok out => exact .inl ⟨out, rfl⟩
  | error e => exact .inr ⟨e, rfl, hrun.result e hresult⟩

/-- A pipeline that is accepted ends on a document with an empty array, in an error that is none of
the configuration. -/
theorem not_run_ok_or_config_farItem :
    ∃ p, ofJson (.array [.object
        [("$addFields", .object [("a.10000", .number (.integer 1))])]]) = .ok p ∧
      ∃ e, (p.run [.object [("a", .array [])]]).result = .error e ∧ e.isConfig = false := by
  have hexpr : (Expr.read (.number (.integer 1)) : Result Expr) = .ok (.literal (.int 1)) := by
    rw [Expr.read]
    · rfl
    all_goals simp
  have hfields : (ComputedFields.read (.object [("a.10000", .number (.integer 1))]) :
      Result ComputedFields) = .ok [("a.10000", .literal (.int 1))] := by
    have hpath : Segments.isFieldPath "a.10000" = true := rfl
    rw [ComputedFields.read, ComputedFields.readFields, if_pos hpath, hexpr]
    · rfl
    · simp
  refine ⟨[.step (.addFields [("a.10000", .literal (.int 1))])], ?_,
    .query (.indexTooFar 10000 "a.10000" 0), rfl, rfl⟩
  simp only [ofJson, read, readStages, readStage, Step.read?, hfields]
  rfl

end Pipeline

end DocStore
