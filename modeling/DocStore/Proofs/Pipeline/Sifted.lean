import DocStore.Proofs.Pipeline.Failure
import DocStore.Proofs.Pipeline.Run
import DocStore.Proofs.Text.Segments

/-!
# Stages that sift documents

`$project` and `$addFields` do the same with each document. If no computed field has a dot in its
name, nothing ends them: each document gives one document or one failure that is recorded, both in
the order of the documents (`Sifted`). This holds wherever the stage stands
(`Pipeline.sifted_run`).
-/

set_option autoImplicit false

namespace DocStore

/-! ## Sifting -/

/-- What becomes of documents one by one: each gives one document, or is dropped and leaves one
failure of the stage, an error of types or of arithmetic. -/
inductive Sifted (f : Value → Result Value) (index : Nat) (stage : String) :
    List Value → List Value → List StageFailure → Prop
  | nil : Sifted f index stage [] [] []
  | kept {doc out : Value} {docs outs : List Value} {failures : List StageFailure}
      (h : f doc = .ok out) (rest : Sifted f index stage docs outs failures) :
      Sifted f index stage (doc :: docs) (out :: outs) failures
  | dropped {doc : Value} {e : Error} {docs outs : List Value} {failures : List StageFailure}
      (h : f doc = .error e)
      (hlocal : (∃ fault, e = .type fault) ∨ ∃ fault, e = .arithmetic fault)
      (rest : Sifted f index stage docs outs failures) :
      Sifted f index stage (doc :: docs) outs ({ index, stage, error := e } :: failures)

/-- No document is lost, and none counts twice. -/
theorem Sifted.length_eq {f : Value → Result Value} {index : Nat} {stage : String}
    {docs outs : List Value} {failures : List StageFailure}
    (h : Sifted f index stage docs outs failures) :
    docs.length = outs.length + failures.length := by
  induction h with
  | nil => rfl
  | kept _ _ ih => simp only [List.length_cons, ih]; omega
  | dropped _ _ _ ih => simp only [List.length_cons, ih]; omega

theorem Error.isDocumentLocal_iff {e : Error} : e.isDocumentLocal = true ↔
    (∃ fault, e = .type fault) ∨ ∃ fault, e = .arithmetic fault := by
  cases e <;> simp [isDocumentLocal]

namespace Run

/-- **Where errors concern single documents**, keeping what documents give sifts them. -/
theorem sifted_keepAll {f : Value → Result Value} (h : ∀ doc, FailsLocally (f doc)) (index : Nat)
    (stage : String) (docs : List Value) :
    ∃ outs, (keepAll index stage (docs.map f)).result = .ok outs ∧
      Sifted f index stage docs outs (keepAll index stage (docs.map f)).failures := by
  induction docs with
  | nil => exact ⟨[], rfl, .nil⟩
  | cons doc rest ih =>
      obtain ⟨outs, hresult, hsifted⟩ := ih
      rw [List.map_cons]
      cases hdoc : f doc with
      | ok out =>
          refine ⟨out :: outs, result_bind hresult _, ?_⟩
          rw [keepAll, failures_bind hresult]
          exact (List.append_nil _).symm ▸ .kept hdoc hsifted
      | error e =>
          -- The error concerns this document alone, so it is recorded and the rest goes on.
          have hlocal := h doc e hdoc
          rw [keepAll, if_pos hlocal]
          exact ⟨outs, hresult, .dropped hdoc (Error.isDocumentLocal_iff.1 hlocal) hsifted⟩

theorem result_traced {index : Nat} {docs out : List Value}
    {stage : Nat → List Value → Run (List Value)} (h : (stage index docs).result = .ok out)
    (name : String) : (traced index name docs stage).result = .ok out :=
  result_bind h _

theorem failures_traced {index : Nat} {docs out : List Value}
    {stage : Nat → List Value → Run (List Value)} (h : (stage index docs).result = .ok out)
    (name : String) : (traced index name docs stage).failures = (stage index docs).failures :=
  (failures_bind h _).trans (List.append_nil _)

end Run

/-! ## The stages -/

/-- What a step does with a document, if it does the same with each. -/
def Step.each? : Step → Option (Value → Result Value)
  | project s => some s.apply
  | addFields fields => some fields.apply
  | _ => none

/-- A name without a dot writes no item of an array. -/
theorem Error.not_pastEnd {paths : List String} (h : ∀ path ∈ paths, '.' ∉ path.toList)
    (e : Error) : ¬ e.PastEnd paths := by
  rintro ⟨path, hpath, segment, hsegment, -⟩
  rw [Segments.ofPath_of_not_mem (h path hpath)] at hsegment
  exact List.not_mem_nil hsegment

namespace Step

variable {s : Step} {f : Value → Result Value}

theorem failsLocally_each (hs : s.each? = some f)
    (hnames : ∀ path ∈ s.computedPaths, '.' ∉ path.toList) (doc : Value) :
    FailsLocally (f doc) := by
  have hlocally {x : Result Value} (h : FailsLocallyOr (·.PastEnd s.computedPaths) x) :
      FailsLocally x :=
    h.mono fun e he => he.resolve_right (e.not_pastEnd hnames)
  cases s with
  | project s =>
      cases hs
      exact hlocally (s.failsLocallyOr_apply doc)
  | addFields fields =>
      cases hs
      exact hlocally (fields.failsLocallyOr_apply doc)
  | _ => cases hs

/-- **A step of computed fields sifts the documents.** -/
theorem sifted_run (hs : s.each? = some f)
    (hnames : ∀ path ∈ s.computedPaths, '.' ∉ path.toList) (index : Nat) (docs : List Value) :
    ∃ outs, (s.run index docs).result = .ok outs ∧
      Sifted f index s.name docs outs (s.run index docs).failures := by
  have hsifted := fun stage => Run.sifted_keepAll (failsLocally_each hs hnames) index stage docs
  cases s with
  | project s =>
      cases hs
      exact hsifted "$project"
  | addFields fields =>
      cases hs
      exact hsifted "$addFields"
  | _ => cases hs

end Step

/-! ## Wherever a stage stands -/

namespace Pipeline

theorem runFrom_append (index : Nat) (p q : Pipeline) (docs : List Value) :
    runFrom index (p ++ q) docs = runFrom index p docs >>= runFrom (index + p.length) q := by
  induction p generalizing index docs with
  | nil => rfl
  | cons stage rest ih =>
      have hindex : index + 1 + rest.length = index + (stage :: rest).length := by
        rw [List.length_cons, Nat.add_right_comm, Nat.add_assoc]
      rw [List.cons_append, runFrom, runFrom, bind_assoc]
      exact bind_congr fun out => by rw [ih, hindex]

/-- Stages in a part of another are the stages of a pipeline of steps. -/
theorem runSteps_eq_runFrom (index : Nat) (steps : List Step) (docs : List Value) :
    Stage.runSteps index steps docs = runFrom index (steps.map .step) docs := by
  induction steps generalizing index docs with
  | nil => rfl
  | cons s rest ih =>
      rw [Stage.runSteps, List.map_cons, runFrom]
      exact bind_congr fun out => ih (index + 1) out

section Around

variable {index i : Nat} {before : Pipeline} {docs mid outs : List Value}

/-- A pipeline gives what stands behind a stage gives on the documents of that stage. -/
theorem result_around (hbefore : (runFrom index before docs).result = .ok mid)
    (hindex : index + before.length = i) {stage : Stage}
    (hstage : (stage.run i mid).result = .ok outs) (after : Pipeline) :
    (runFrom index (before ++ stage :: after) docs).result =
      (runFrom (i + 1) after outs).result := by
  subst hindex
  rw [runFrom_append, Run.result_bind hbefore]
  exact Run.result_bind (Run.result_traced hstage stage.name) _

/-- A pipeline records what is recorded before a stage, by the stage, and behind it. -/
theorem failures_around (hbefore : (runFrom index before docs).result = .ok mid)
    (hindex : index + before.length = i) {stage : Stage}
    (hstage : (stage.run i mid).result = .ok outs) (after : Pipeline) :
    (runFrom index (before ++ stage :: after) docs).failures =
      (runFrom index before docs).failures ++
        ((stage.run i mid).failures ++ (runFrom (i + 1) after outs).failures) := by
  subst hindex
  rw [runFrom_append, Run.failures_bind hbefore, runFrom,
    Run.failures_bind (Run.result_traced hstage stage.name),
    Run.failures_traced hstage stage.name]

end Around

end Pipeline

namespace Stage

/-- What the parts of a stage record stands together in what the stage records. -/
theorem infix_failures_facet {parts : List (String × List Step)} {part : String}
    {steps : List Step} (h : (part, steps) ∈ parts) (index : Nat) (docs : List Value) :
    (runSteps 0 steps docs).failures.map (partFailure index part) <:+:
      ((facet parts).run index docs).failures := by
  refine List.infix_of_mem_flatten (List.mem_map.2 ⟨(part, runSteps 0 steps docs), ?_, rfl⟩)
  exact List.mem_map_of_mem (f := fun p => (p.1, runSteps 0 p.2 docs)) h

end Stage

namespace Pipeline

variable {s : Step} {f : Value → Result Value}

/-- **Stages that compute fields never end a pipeline**, if no computed field has a dot in its name.
Wherever such a stage stands, among other stages or in a part of one, each document that reaches it
gives one document or one failure, and the pipeline goes on with the documents. -/
theorem sifted_around (hs : s.each? = some f)
    (hnames : ∀ path ∈ s.computedPaths, '.' ∉ path.toList) :
    (∀ before after docs mid, (run before docs).result = .ok mid →
      ∃ outs failures, Sifted f before.length s.name mid outs failures ∧
        (run (before ++ .step s :: after) docs).result =
          (runFrom (before.length + 1) after outs).result ∧
        (run (before ++ .step s :: after) docs).failures =
          (run before docs).failures ++
            (failures ++ (runFrom (before.length + 1) after outs).failures)) ∧
    ∀ parts part before after index docs mid, (part, before ++ s :: after) ∈ parts →
      (Stage.runSteps 0 before docs).result = .ok mid →
      ∃ outs failures, Sifted f before.length s.name mid outs failures ∧
        (Stage.runSteps 0 (before ++ s :: after) docs).result =
          (Stage.runSteps (before.length + 1) after outs).result ∧
        failures.map (Stage.partFailure index part) <:+:
          ((Stage.facet parts).run index docs).failures := by
  have hstep (index : Nat) (docs : List Value) : ∃ outs,
      ((Stage.step s).run index docs).result = .ok outs ∧
        Sifted f index s.name docs outs ((Stage.step s).run index docs).failures :=
    Step.sifted_run hs hnames index docs
  constructor
  · intro before after docs mid hmid
    obtain ⟨outs, hresult, hsifted⟩ := hstep before.length mid
    have hindex : 0 + before.length = before.length := Nat.zero_add _
    exact ⟨outs, _, hsifted, result_around hmid hindex hresult after,
      failures_around hmid hindex hresult after⟩
  · -- A part runs as a pipeline of its own, whose indices start at 0.
    intro parts part before after index docs mid hpart hmid
    rw [runSteps_eq_runFrom] at hmid
    obtain ⟨outs, hresult, hsifted⟩ := hstep before.length mid
    have hindex : 0 + (before.map Stage.step).length = before.length := by simp
    have hsteps : Stage.runSteps 0 (before ++ s :: after) docs =
        runFrom 0 (before.map .step ++ .step s :: after.map .step) docs := by
      rw [runSteps_eq_runFrom, List.map_append, List.map_cons]
    refine ⟨outs, _, hsifted, ?_, ?_⟩
    · rw [hsteps, runSteps_eq_runFrom]
      exact result_around hmid hindex hresult _
    · refine .trans ?_ (Stage.infix_failures_facet hpart index docs)
      rw [hsteps, failures_around hmid hindex hresult]
      exact (List.infix_append' _ _ _).map _

theorem sifted_around_prices :
    let fields : ComputedFields := [("total", .add [.field "price", .literal (.int 5)])]
    let docs : List Value := [.object [("price", .int 10)], .object [("price", .string "free")]]
    let p : Pipeline := [.step (.limit 5), .step (.addFields fields)]
    (∀ path ∈ (Step.addFields fields).computedPaths, '.' ∉ path.toList) ∧
      (p.run docs).result = .ok [.object [("price", .int 10), ("total", .int 15)]] ∧
      ∃ outs, Sifted fields.apply 1 "$addFields" docs outs (p.run docs).failures := by
  intro fields docs p
  have hnames : ∀ path ∈ (Step.addFields fields).computedPaths, '.' ∉ path.toList := by decide
  obtain ⟨outs, failures, hsifted, -, hfailures⟩ :=
    (sifted_around (s := .addFields fields) rfl hnames).1 [.step (.limit 5)] [] docs docs rfl
  have hrecorded : (p.run docs).failures = failures := hfailures.trans (List.append_nil failures)
  exact ⟨hnames, rfl, outs, hrecorded ▸ hsifted⟩

end Pipeline

end DocStore
