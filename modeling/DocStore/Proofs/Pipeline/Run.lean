import DocStore.Pipeline.Reader
import DocStore.Proofs.Reading

/-!
# Stages that compute a function

A run is `Run.Clean` if it gives a value and records no failure. Stages compute a function on lists
of documents if they are read with every cache of patterns, wherever they stand, and all their runs
are clean (`Pipeline.Computes`). Stages that compute can be put in a row, and some of them be left
out (`Pipeline.computes_reduceOption`).
-/

set_option autoImplicit false

namespace DocStore

variable {α β : Type}

namespace Run

/-! ## Runs one after the other -/

theorem result_bind {r : Run α} {a : α} (h : r.result = .ok a) (next : α → Run β) :
    (r >>= next).result = (next a).result := by
  change (r.andThen next).result = _
  rw [andThen, h]

theorem failures_bind {r : Run α} {a : α} (h : r.result = .ok a) (next : α → Run β) :
    (r >>= next).failures = r.failures ++ (next a).failures := by
  change (r.andThen next).failures = _
  rw [andThen, h]

instance : LawfulMonad Run := .mk' Run
  (fun r => by
    change r.andThen ok = r
    obtain ⟨result, failures, notes⟩ := r
    cases result <;> simp [andThen, ok])
  (fun _ _ => rfl)
  (fun r f g => by
    change (r.andThen f).andThen g = r.andThen fun a => (f a).andThen g
    obtain ⟨result, failures, notes⟩ := r
    cases result with
    | error e => rfl
    | ok a =>
        simp only [andThen]
        split <;> simp)

/-! ## Clean runs -/

/-- The run gives a value and records no failure. -/
structure Clean (r : Run α) (a : α) : Prop where
  result : r.result = .ok a
  failures : r.failures = []

theorem clean_ok (a : α) : Clean (ok a) a := ⟨rfl, rfl⟩

theorem clean_note (level : LogLevel) (message : String) : Clean (note level message) () :=
  ⟨rfl, rfl⟩

theorem Clean.bind {r : Run α} {next : α → Run β} {a : α} {b : β} (h : Clean r a)
    (hnext : Clean (next a) b) : Clean (r >>= next) b := by
  refine ⟨(result_bind h.result next).trans hnext.result, ?_⟩
  rw [failures_bind h.result next, h.failures, hnext.failures, List.nil_append]

/-- Where no document fails, all are kept. -/
theorem clean_keepAll (index : Nat) (stage : String) (as : List α) :
    Clean (keepAll index stage (as.map .ok)) as := by
  induction as with
  | nil => exact clean_ok []
  | cons a rest ih => exact ih.bind (clean_ok _)

theorem Clean.traced {index : Nat} {docs out : List Value}
    {stage : Nat → List Value → Run (List Value)} (h : Clean (stage index docs) out)
    (name : String) : Clean (traced index name docs stage) out :=
  h.bind ((clean_note _ _).bind (clean_ok _))

end Run

namespace Pipeline

/-! ## Reading stages -/

/-- A stage with the name of a step is that step. -/
theorem readStage_step {name : String} (hname : name ≠ "$facet") {spec : Json}
    {step : CachedReading Step} (h : Step.read? name spec = some step) :
    readStage (.object [(name, spec)]) = do return .step (← step) := by
  rw [readStage, if_neg hname, h]

/-- A step that is read whatever patterns are cached is such a stage. -/
theorem always_readStage {name : String} (hname : name ≠ "$facet") {spec : Json}
    {step : CachedReading Step} {s : Step} (hstep : Step.read? name spec = some step)
    (hread : Always step s) : Always (readStage (.object [(name, spec)])) (.step s) := by
  rw [readStage_step hname hstep]
  exact hread.bind (always_pure (Stage.step s))

theorem run_readStages_cons {index : Nat} {j : Json} {rest : List Json}
    {cache cache' cache'' : PatternCache} {stage : Stage} {stages : Pipeline}
    (hstage : (readStage j : CachedReading Stage).run.run cache = (.ok stage, cache'))
    (hrest : (readStages (index + 1) rest : CachedReading Pipeline).run.run cache' =
      (.ok stages, cache'')) :
    (readStages index (j :: rest) : CachedReading Pipeline).run.run cache =
      (.ok (stage :: stages), cache'') := by
  rw [readStages, run_bind_of_eq (run_mapError_of_eq hstage _), run_bind_of_eq hrest]
  rfl

theorem clean_runFrom_cons {index : Nat} {s : Stage} {rest : Pipeline}
    {docs between out : List Value} (hstage : (s.run index docs).Clean between)
    (hrest : (runFrom (index + 1) rest between).Clean out) :
    (runFrom index (s :: rest) docs).Clean out :=
  (hstage.traced s.name).bind hrest

/-! ## Stages that compute -/

/-- Stages are read whatever patterns are cached, and turn documents into those that a function
gives. -/
def Computes (js : List Json) (g : List Value → List Value) : Prop :=
  ∃ stages : Pipeline, (∀ index, Always (readStages index js) stages) ∧
    ∀ index docs, (runFrom index stages docs).Clean (g docs)

/-- A stage that may be left out computes a function, or is left out and computes none. -/
inductive MayCompute : Option Json → (List Value → List Value) → Prop
  | absent : MayCompute none id
  | present {name : String} {spec : Json} {step : CachedReading Step} {s : Step}
      {g : List Value → List Value} (hname : name ≠ "$facet")
      (hstep : Step.read? name spec = some step) (hread : Always step s)
      (hrun : ∀ index docs, (s.run index docs).Clean (g docs)) :
      MayCompute (some (.object [(name, spec)])) g

/-- **Stages in a row compute one function after the other.** -/
theorem computes_reduceOption {js : List (Option Json)} {gs : List (List Value → List Value)}
    (h : List.Forall₂ MayCompute js gs) :
    Computes js.reduceOption fun docs => gs.foldl (fun docs g => g docs) docs := by
  induction h with
  | nil => exact ⟨[], fun _ => always_pure _, fun _ docs => Run.clean_ok docs⟩
  | @cons j g js gs hj _ ih =>
      obtain ⟨stages, hreads, hruns⟩ := ih
      cases hj with
      | absent => exact ⟨stages, hreads, hruns⟩
      | @present name spec step s _ hname hstep hread hrun =>
          refine ⟨.step s :: stages, fun index cache => ?_, fun index docs => ?_⟩
          · have hstage := always_readStage hname hstep hread cache
            exact run_readStages_cons hstage (hreads (index + 1) cache)
          · exact clean_runFrom_cons (hrun index docs) (hruns (index + 1) (g docs))

end Pipeline

end DocStore
