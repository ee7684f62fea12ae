import DocStore.Pipeline.Reader
import DocStore.Proofs.Expr.Reading

/-!
# Pipelines read in two contexts

A `Compatible` relation holds of the two readings of each stage and of each pipeline. Two relations
are compatible: that readings fail with errors of the configuration only, and that caches of
patterns do not change what is read. So a malformed pipeline is always reported as one
(`Pipeline.read_or_config`), and a pipeline that is accepted without a cache means the same with
each (`Pipeline.steady_read`).
-/

set_option autoImplicit false

namespace DocStore

namespace Compatible

variable {R : ∀ {α : Type}, Result α → CachedReading α → Prop} (h : Compatible @R)
include h

/-! ## Steps -/

theorem stageFail {α : Type} (f : StageFault) :
    R (StageFault.fail f : Result α) (StageFault.fail f) :=
  h.fail (.stage f)

theorem stageRequire {α : Type} (v : Option α) (f : StageFault) :
    R (StageFault.require v f) (StageFault.require v f) := h.require v (.stage f)

theorem readEntry (path : String) (j : Json) :
    R (ProjectStage.readEntry path j) (ProjectStage.readEntry path j) := by
  unfold ProjectStage.readEntry
  split
  · exact h.pure _
  · exact h.bind (h.stageRequire _ _) fun _ => h.pure _
  · exact h.bind (h.readExpr j) fun _ => h.pure _

theorem readEntries (specs : List (String × Json)) :
    R (ProjectStage.readEntries specs) (ProjectStage.readEntries specs) := by
  induction specs with
  | nil => exact h.pure []
  | cons e rest ih =>
      unfold ProjectStage.readEntries
      split
      · exact h.bind (h.readEntry e.1 e.2) fun _ => h.bind ih fun _ => h.pure _
      · exact h.stageFail _

theorem readProject (j : Json) : R (ProjectStage.read j) (ProjectStage.read j) := by
  unfold ProjectStage.read
  split
  · exact h.stageFail _
  · exact h.bind (h.readEntries _) fun _ => h.stageRequire _ _
  · exact h.stageFail _

theorem readComputedFields (specs : List (String × Json)) :
    R (ComputedFields.readFields specs) (ComputedFields.readFields specs) := by
  induction specs with
  | nil => exact h.pure []
  | cons e rest ih =>
      unfold ComputedFields.readFields
      split
      · exact h.bind (h.readExpr e.2) fun _ => h.bind ih fun _ => h.pure _
      · exact h.stageFail _

theorem readComputed (j : Json) : R (ComputedFields.read j) (ComputedFields.read j) := by
  unfold ComputedFields.read
  split
  · exact h.stageFail _
  · exact h.readComputedFields _
  · exact h.stageFail _

theorem readGroup (j : Json) : R (GroupStage.read j) (GroupStage.read j) := by
  unfold GroupStage.read
  split
  · exact h.bind (h.stageRequire _ _) fun id =>
      h.bind (h.readExpr id) fun _ => h.bind (h.readAccumulators _ _) fun _ => h.pure _
  · exact h.stageFail _

theorem readUnwind (j : Json) : R (UnwindStage.read j) (UnwindStage.read j) := by
  have hoptions : R (UnwindStage.readOptions j) (UnwindStage.readOptions j) := by
    unfold UnwindStage.readOptions
    split
    · exact h.pure _
    · split
      · exact h.stageFail _
      · refine h.bind (h.stageRequire _ _) fun text => ?_
        split
        · exact h.pure _
        · exact h.bind (h.stageRequire _ _) fun _ => h.pure _
    · exact h.stageFail _
  exact h.bind hoptions fun _ => h.bind (h.stageRequire _ _) fun _ => h.pure _

theorem checkKeys (stage : String) (allowed : List String) (fields : Fields Json) :
    R (BucketStage.checkKeys stage allowed fields)
      (BucketStage.checkKeys stage allowed fields) := by
  unfold BucketStage.checkKeys
  split
  · exact h.stageFail _
  · exact h.pure ()

theorem readOutput (stage : String) (fields : Fields Json) :
    R (BucketStage.readOutput stage fields) (BucketStage.readOutput stage fields) := by
  unfold BucketStage.readOutput
  split
  · exact h.pure _
  · exact h.readAccumulators _ _
  · exact h.stageFail _

theorem checkBoundaries (boundaries : List Value) :
    R (BucketStage.checkBoundaries boundaries) (BucketStage.checkBoundaries boundaries) := by
  induction boundaries with
  | nil => exact h.pure ()
  | cons a rest ih =>
      cases rest with
      | nil => exact h.pure ()
      | cons b rest =>
          unfold BucketStage.checkBoundaries
          split
          · exact ih
          · exact h.stageFail _

theorem checkFallback (boundaries : List Value) (label : Option Value) :
    R (BucketStage.checkFallback boundaries label)
      (BucketStage.checkFallback boundaries label) := by
  unfold BucketStage.checkFallback
  split
  · exact h.pure ()
  · split
    · split
      · exact h.stageFail _
      · exact h.pure ()
    · exact h.pure ()

theorem readBucket (j : Json) : R (BucketStage.read j) (BucketStage.read j) := by
  unfold BucketStage.read
  split
  · refine h.bind (h.checkKeys _ _ _) fun _ => h.bind (h.stageRequire _ _) fun groupBy =>
      h.bind (h.stageRequire _ _) fun raw => ?_
    dsimp only
    split
    · exact h.stageFail _
    · exact h.bind (h.checkBoundaries _) fun _ => h.bind (h.checkFallback _ _) fun _ =>
        h.bind (h.readExpr groupBy) fun _ => h.bind (h.readOutput _ _) fun _ => h.pure _
  · exact h.stageFail _

theorem readBucketAuto (j : Json) : R (BucketAutoStage.read j) (BucketAutoStage.read j) := by
  unfold BucketAutoStage.read
  split
  · exact h.bind (h.checkKeys _ _ _) fun _ => h.bind (h.stageRequire _ _) fun groupBy =>
      h.bind (h.stageRequire _ _) fun _ =>
        h.bind (h.readExpr groupBy) fun _ => h.bind (h.readOutput _ _) fun _ => h.pure _
  · exact h.stageFail _

theorem readSortKeys (specs : List (String × Json)) :
    R (Step.readSortKeys specs) (Step.readSortKeys specs) := by
  induction specs with
  | nil => exact h.pure []
  | cons e rest ih => exact h.bind (h.stageRequire _ _) fun _ => h.bind ih fun _ => h.pure _

theorem readSort (j : Json) : R (Step.readSort j) (Step.readSort j) := by
  unfold Step.readSort
  split
  · exact h.stageFail _
  · exact h.readSortKeys _
  · exact h.stageFail _

theorem readStep (name : String) (spec : Json) :
    Option.Rel (@R Step) (Step.read? name spec) (Step.read? name spec) := by
  unfold Step.read?
  split
  · exact .some (h.bind (h.filter spec fun _ => rfl) fun _ => h.pure _)
  · exact .some (h.bind (h.readSort spec) fun _ => h.pure _)
  · exact .some (h.bind (h.stageRequire _ _) fun _ => h.pure _)
  · exact .some (h.bind (h.stageRequire _ _) fun _ => h.pure _)
  · exact .some (h.bind (h.readProject spec) fun _ => h.pure _)
  · exact .some (h.bind (h.readComputed spec) fun _ => h.pure _)
  · exact .some (h.bind (h.readComputed spec) fun _ => h.pure _)
  · exact .some (h.bind (h.readGroup spec) fun _ => h.pure _)
  · exact .some (h.bind (h.readUnwind spec) fun _ => h.pure _)
  · exact .some (h.bind (h.readBucket spec) fun _ => h.pure _)
  · exact .some (h.bind (h.readBucketAuto spec) fun _ => h.pure _)
  · exact .some (h.bind (h.stageRequire _ _) fun _ => h.pure _)
  · exact .none

/-! ## Pipelines -/

mutual

/-- **Each pipeline** is read in related ways. -/
theorem readPipeline (j : Json) : R (Pipeline.read j) (Pipeline.read j) := by
  cases j with
  | array items => exact readStages 0 items
  | _ => exact h.stageFail _

theorem readStages (index : Nat) (items : List Json) :
    R (Pipeline.readStages index items) (Pipeline.readStages index items) := by
  cases items with
  | nil => exact h.pure []
  | cons j rest =>
      exact h.bind (h.mapError (fun _ => rfl) (readStage j)) fun _ =>
        h.bind (readStages (index + 1) rest) fun _ => h.pure _

/-- **Each stage** is read in related ways. -/
theorem readStage (j : Json) : R (Pipeline.readStage j) (Pipeline.readStage j) := by
  unfold Pipeline.readStage
  split
  · split
    · exact h.bind (readFacet _) fun _ => h.pure _
    · rename_i name spec _
      have hstep := h.readStep name spec
      generalize (Step.read? name spec : Option (Result Step)) = x at hstep ⊢
      generalize (Step.read? name spec : Option (CachedReading Step)) = y at hstep ⊢
      cases hstep with
      | some hstep => exact h.bind hstep fun _ => h.pure _
      | none => exact h.stageFail _
  · exact h.stageFail _
  · exact h.stageFail _

theorem readFacet (j : Json) : R (Pipeline.readFacet j) (Pipeline.readFacet j) := by
  unfold Pipeline.readFacet
  split
  · exact h.stageFail _
  · exact readParts _
  · exact h.stageFail _

theorem readParts (parts : List (String × Json)) :
    R (Pipeline.readParts parts) (Pipeline.readParts parts) := by
  cases parts with
  | nil => exact h.pure []
  | cons e rest =>
      obtain ⟨name, j⟩ := e
      unfold Pipeline.readParts
      split
      · exact h.bind (h.mapError (fun _ => rfl) (readPipeline j)) fun _ =>
          h.bind (h.stageRequire _ _) fun _ => h.bind (readParts rest) fun _ => h.pure _
      · exact h.stageFail _

end

end Compatible

/-! ## What readings fail with -/

/-- Both readings fail with errors of the configuration only. -/
def FailAsConfig {α : Type} (x : Result α) (y : CachedReading α) : Prop :=
  FailsOnly (·.isConfig = true) x ∧ ∀ cache, FailsOnly (·.isConfig = true) (y.run.run cache).1

theorem failsOnly_run_bind {α β : Type} {P : Error → Prop} {x : CachedReading α}
    {f : α → CachedReading β} (hx : ∀ cache, FailsOnly P (x.run.run cache).1)
    (hf : ∀ a cache, FailsOnly P ((f a).run.run cache).1) (cache : PatternCache) :
    FailsOnly P ((x >>= f).run.run cache).1 := by
  have h := hx cache
  rw [ExceptT.run_bind, StateT.run_bind]
  rcases hrun : x.run.run cache with ⟨r, cache'⟩
  rw [hrun] at h
  cases r with
  | error e => exact failsOnly_error (h e rfl)
  | ok a => exact hf a cache'

theorem failsOnly_mapError {α : Type} {P Q : Error → Prop} {x : Result α} {f : Error → Error}
    (h : FailsOnly P x) (hf : ∀ e, P e → Q (f e)) : FailsOnly Q (x.mapError f) := by
  cases x with
  | error e => exact failsOnly_error (hf e (h e rfl))
  | ok a => exact failsOnly_ok a

theorem failAsConfig_mapError {α : Type} {P : Error → Prop} {x : Result α} {y : CachedReading α}
    {f : Error → Error} (hf : ∀ e, P e → (f e).isConfig = true) (hx : FailsOnly P x)
    (hy : ∀ cache, FailsOnly P (y.run.run cache).1) :
    FailAsConfig (Reading.mapError f x) (Reading.mapError f y) := by
  constructor
  · rw [mapError_eq]
    exact failsOnly_mapError hx hf
  · intro cache
    rw [run_mapError]
    exact failsOnly_mapError (hy cache) hf

/-- Whatever a part fails with, if it is reported as an error of the configuration. -/
theorem failAsConfig_mapError_of_all {α : Type} {f : Error → Error}
    (hf : ∀ e, (f e).isConfig = true) (x : Result α) (y : CachedReading α) :
    FailAsConfig (Reading.mapError f x) (Reading.mapError f y) :=
  failAsConfig_mapError (P := fun _ => True) (fun e _ => hf e) (fun _ _ => trivial)
    fun _ _ _ => trivial

theorem compatible_failAsConfig : Compatible @FailAsConfig where
  pure a := ⟨failsOnly_ok a, fun _ => failsOnly_ok a⟩
  bind hx hf := ⟨hx.1.bind fun a => (hf a).1, failsOnly_run_bind hx.2 fun a => (hf a).2⟩
  fail _ := ⟨failsOnly_error rfl, fun _ => failsOnly_error rfl⟩
  mapError := by
    intro α x y f hf hx
    refine failAsConfig_mapError (P := (·.isConfig = true)) ?_ hx.1 hx.2
    intro e he
    cases e with
    | config fault => exact hf fault
    | _ => cases he
  pattern _ _ _ hf := failAsConfig_mapError_of_all hf _ _
  filter _ _ hf := failAsConfig_mapError_of_all hf _ _

theorem exists_config_of_failsOnly {α : Type} {r : Result α}
    (h : FailsOnly (·.isConfig = true) r) :
    (∃ a, r = .ok a) ∨ ∃ fault, r = .error (.config fault) := by
  cases r with
  | ok a => exact .inl ⟨a, rfl⟩
  | error e =>
      have he := h e rfl
      cases e with
      | config fault => exact .inr ⟨fault, rfl⟩
      | _ => cases he

/-- **Whatever is wrong with a pipeline**, at any depth, is reported as an error of the
configuration, and so is what is wrong with a stage. -/
theorem Pipeline.read_or_config (j : Json) (cache : PatternCache) :
    ((∃ p, ((read j : CachedReading Pipeline).run.run cache).1 = .ok p) ∨
      ∃ fault, ((read j : CachedReading Pipeline).run.run cache).1 = .error (.config fault)) ∧
    ((∃ s, ((readStage j : CachedReading Stage).run.run cache).1 = .ok s) ∨
      ∃ fault, ((readStage j : CachedReading Stage).run.run cache).1 = .error (.config fault)) :=
  ⟨exists_config_of_failsOnly ((compatible_failAsConfig.readPipeline j).2 cache),
    exists_config_of_failsOnly ((compatible_failAsConfig.readStage j).2 cache)⟩

/-! ## What caches can change -/

theorem Steady.mapError {α : Type} {x : Result α} {y : CachedReading α} (h : Steady x y)
    (f : Error → Error) : Steady (Reading.mapError f x) (Reading.mapError f y) where
  reached := by
    intro cache hcache
    rw [run_mapError]
    exact h.reached hcache
  total := by
    intro cache a hcache ha
    rw [mapError_eq] at ha
    rw [run_mapError]
    exact mapError_eq_ok.2 (h.total hcache (mapError_eq_ok.1 ha))
  unique := by
    intro cache cache' a b hcache hcache' ha hb
    exact h.unique hcache hcache' (run_eq_ok_of_mapError ha) (run_eq_ok_of_mapError hb)

theorem compatible_steady : Compatible @Steady where
  pure := steady_pure
  bind := Steady.bind
  fail _ := steady_fail _
  mapError _ h := h.mapError _
  pattern source options _ _ := (steady_pattern source options).mapError _
  filter j _ _ := (Filter.steady_read j).mapError _

/-- **A cache of patterns does not change what a pipeline means.** -/
theorem Pipeline.steady_read (j : Json) : Steady (read j) (read j) :=
  compatible_steady.readPipeline j

end DocStore
