import Mathlib.Data.List.Induction
import DocStore.Pipeline.Group
import DocStore.Proofs.Pipeline.Failure

/-!
# Evaluated documents

The stages that gather documents evaluate a group value and the inputs of accumulators on each
document. Where that fails the document is dropped, so such a stage goes on with the documents that
are `evaluated`: `GroupStage.result_keepAll_keyed`. The accumulators of a stage are fed together,
but none of them sees the inputs of another: the row of a group holds what each gives for its own
inputs, `Accumulators.get?_row_of_mem`.
-/

set_option autoImplicit false

namespace DocStore

namespace Run

variable {α β : Type}

theorem result_bind_eq_ok {r : Run α} {next : α → Run β} {b : β} :
    (r >>= next).result = .ok b ↔ ∃ a, r.result = .ok a ∧ (next a).result = .ok b := by
  change (r.andThen next).result = _ ↔ _
  rw [andThen]
  cases r.result <;> simp

/-- **What is kept.** A run goes on if all errors concern single documents, with what the other
documents gave. -/
theorem result_keepAll_eq_ok (index : Nat) (stage : String) {results : List (Result α)}
    {as : List α} : (keepAll index stage results).result = .ok as ↔
      (∀ r ∈ results, FailsLocally r) ∧ results.filterMap Except.toOption = as := by
  induction results generalizing as with
  | nil => simp [keepAll, ok]
  | cons r rest ih =>
      rw [List.forall_mem_cons]
      cases r with
      | ok a =>
          have hrun : (keepAll index stage (.ok a :: rest)).result =
              (keepAll index stage rest).result.map (a :: ·) := by
            change ((keepAll index stage rest).andThen fun more => ok (a :: more)).result = _
            rw [andThen]
            cases (keepAll index stage rest).result <;> rfl
          rw [hrun, map_eq_ok]
          simp only [ih, List.filterMap_cons, Except.toOption]
          constructor
          · rintro ⟨more, ⟨hrest, rfl⟩, rfl⟩
            exact ⟨⟨failsOnly_ok a, hrest⟩, rfl⟩
          · rintro ⟨⟨-, hrest⟩, rfl⟩
            exact ⟨_, ⟨hrest, rfl⟩, rfl⟩
      | error e =>
          rw [keepAll]
          split
          · rename_i hlocal
            -- An error that is recorded changes the failures of the run only.
            have hrun : (drop index stage e >>= fun _ => keepAll index stage rest).result =
                (keepAll index stage rest).result := rfl
            rw [hrun, ih]
            simp only [List.filterMap_cons, Except.toOption]
            have he : FailsLocally (.error e : Result α) := failsOnly_error hlocal
            simp [he]
          · rename_i hlocal
            constructor
            · intro h
              cases h
            · exact fun h => absurd (h.1.1 e rfl) hlocal

/-- **What is recorded.** Where all errors concern single documents, each document that fails is
recorded with its error, in the order of the documents. -/
theorem failures_keepAll (index : Nat) (stage : String) {f : Value → Result α} {docs : List Value}
    (h : ∀ d ∈ docs, FailsLocally (f d)) :
    List.Forall₂ (fun d failure => ∃ e, f d = .error e ∧ failure = { index, stage, error := e })
      (docs.filter fun d => !(f d).toOption.isSome)
      (keepAll index stage (docs.map f)).failures := by
  induction docs with
  | nil => exact .nil
  | cons d rest ih =>
      obtain ⟨hd, hrest⟩ := List.forall_mem_cons.1 h
      have ih := ih hrest
      rw [List.map_cons, List.filter_cons]
      cases hresult : f d with
      | ok a =>
          have hrun : (keepAll index stage (.ok a :: rest.map f)).failures =
              (keepAll index stage (rest.map f)).failures := by
            change ((keepAll index stage (rest.map f)).andThen
              fun more => ok (a :: more)).failures = _
            rw [andThen]
            cases (keepAll index stage (rest.map f)).result with
            | error e => rfl
            | ok more => exact List.append_nil _
          rw [hrun]
          exact ih
      | error e =>
          rw [keepAll, if_pos (hd e hresult)]
          exact .cons ⟨e, hresult, rfl⟩ ih

/-- What the documents give that a stage can evaluate. -/
theorem filterMap_toOption {f : Value → Result α} {evaluates : Value → Bool} {value : Value → α}
    {docs : List Value}
    (h : ∀ d ∈ docs, (f d).toOption = if evaluates d then some (value d) else none) :
    (docs.map f).filterMap Except.toOption = (docs.filter evaluates).map value := by
  rw [List.filterMap_map, ← List.filterMap_eq_map, List.filterMap_filter]
  exact List.filterMap_congr h

end Run

namespace Accumulators

/-- What named accumulators have gathered. -/
def results (accs : Accumulators) (states : List Accumulation) : List (String × Value) :=
  (accs.zip states).map fun e => (e.1.1, e.2.result)

theorem finish_eq (accs : Accumulators) (states : List Accumulation) (out : Fields Value) :
    finish accs states out =
      (results accs states).foldl (fun m e => Fields.insert m e.1 e.2) out := by
  rw [finish, results, List.foldl_map]

theorem get?_finish {name : String} (accs : Accumulators) (h : name ∉ accs.map (·.1))
    (states : List Accumulation) (out : Fields Value) :
    Fields.get? (finish accs states out) name = Fields.get? out name := by
  rw [finish_eq]
  refine Fields.get?_foldl_insert (fun hmem => h ?_) out
  rw [results, Fields.keys, List.map_map] at hmem
  obtain ⟨e, he, rfl⟩ := List.mem_map.1 hmem
  exact List.mem_map_of_mem (List.of_mem_zip he).1

/-- The id of a row, unless an accumulator takes its field. -/
theorem get?_row {accs : Accumulators} (h : idField ∉ accs.map (·.1)) (id : Value)
    (group : List Inputs) : (accs.row id group).get? idField = some id :=
  get?_finish accs h _ [(idField, id)]

end Accumulators

namespace GroupStage

variable (id : Expr) (accs : Accumulators)

/-- Whether the group value and all inputs of a document can be computed. -/
def evaluates (doc : Value) : Bool := (keyed id accs doc).toOption.isSome

/-- The documents that are evaluated. -/
def evaluated (docs : List Value) : List Value := docs.filter (evaluates id accs)

/-- The group value of a document, null if it has none. -/
def keyOf (doc : Value) : Value := (id.eval doc).toOption.getD .null

/-- The inputs of a document, none if they cannot be computed. -/
def inputsOf (doc : Value) : Inputs := (accs.inputs doc).toOption.getD []

theorem keyed_eq_ok {doc : Value} (h : evaluates id accs doc = true) :
    keyed id accs doc = .ok (keyOf id doc, inputsOf accs doc) := by
  unfold evaluates keyed at h
  unfold keyed keyOf inputsOf
  cases hkey : id.eval doc with
  | error e =>
      rw [hkey] at h
      cases h
  | ok key =>
      rw [hkey] at h
      cases hinputs : accs.inputs doc with
      | error e =>
          rw [hinputs] at h
          cases h
      | ok inputs => rfl

theorem evaluates_of_keyed {doc : Value} {e : Value × Inputs} (h : keyed id accs doc = .ok e) :
    evaluates id accs doc = true := by
  rw [evaluates, h]
  rfl

theorem toOption_keyed (doc : Value) : (keyed id accs doc).toOption =
    if evaluates id accs doc then some (keyOf id doc, inputsOf accs doc) else none := by
  by_cases h : evaluates id accs doc = true
  · rw [if_pos h, keyed_eq_ok id accs h]
    rfl
  · rw [if_neg h]
    cases hkeyed : keyed id accs doc with
    | error e => rfl
    | ok e => exact absurd (evaluates_of_keyed id accs hkeyed) h

/-- **A stage goes on with the documents that it evaluates.** -/
theorem result_keepAll_keyed (index : Nat) (stage : String) (docs : List Value) :
    (Run.keepAll index stage (docs.map (keyed id accs))).result =
      .ok ((evaluated id accs docs).map fun d => (keyOf id d, inputsOf accs d)) :=
  (Run.result_keepAll_eq_ok index stage).2
    ⟨List.forall_mem_map.2 fun doc _ => failsLocally_keyed id accs doc,
      Run.filterMap_toOption fun doc _ => toOption_keyed id accs doc⟩

end GroupStage

/-! ## Accumulated values -/

/-- The value that an accumulator gives for inputs. -/
def AccumulatorOp.accumulate (op : AccumulatorOp) (inputs : List (Option Value)) : Value :=
  (inputs.foldl (fun acc input => acc.feed input) op.start).result

/-- The input that a document gives, none if it is missing or cannot be computed. -/
def Accumulator.inputOf (acc : Accumulator) (doc : Value) : Option Value :=
  (acc.input.eval? doc).toOption.join

namespace Accumulators

open GroupStage (inputsOf)

variable {accs : Accumulators}

/-- Whether the inputs of all accumulators can be computed. -/
def Computes (accs : Accumulators) (doc : Value) : Prop := ∃ inputs, accs.inputs doc = .ok inputs

theorem inputsOf_eq {doc : Value} (h : accs.Computes doc) :
    inputsOf accs doc = accs.map fun a => a.2.inputOf doc := by
  obtain ⟨inputs, h⟩ := h
  rw [inputsOf, h]
  change inputs = _
  induction accs generalizing inputs with
  | nil =>
      cases h
      rfl
  | cons a rest ih =>
      rw [Accumulators.inputs, List.mapM_cons] at h
      obtain ⟨input, hinput, h⟩ := bind_eq_ok.1 h
      obtain ⟨others, hothers, ⟨⟩⟩ := bind_eq_ok.1 h
      rw [List.map_cons, ← ih others hothers, Accumulator.inputOf, hinput]
      rfl

/-- **Accumulators do not mix.** What each of them has gathered depends on its own inputs. -/
theorem foldl_feed {docs : List Value} (h : ∀ d ∈ docs, accs.Computes d) :
    (docs.map (inputsOf accs)).foldl feed accs.start = accs.map fun a =>
      (docs.map a.2.inputOf).foldl (fun acc input => acc.feed input) a.2.op.start := by
  induction docs using List.reverseRecOn with
  | nil => rfl
  | append_singleton docs d ih =>
      have hbefore := ih fun d' hd' => h d' (List.mem_append_left _ hd')
      have hlast : inputsOf accs d = accs.map fun a => a.2.inputOf d :=
        inputsOf_eq (h d (List.mem_append_right _ (List.mem_singleton_self d)))
      simp only [List.map_append, List.map_singleton, List.foldl_append, List.foldl_cons,
        List.foldl_nil]
      rw [hbefore, hlast, feed, List.zipWith_map, List.zipWith_self]

/-- **The value of an accumulator** in the row of a group. -/
theorem get?_row_of_mem (hnames : (accs.map (·.1)).Nodup) {name : String} {acc : Accumulator}
    (hmem : (name, acc) ∈ accs) (id : Value) {docs : List Value}
    (hdocs : ∀ d ∈ docs, accs.Computes d) :
    (accs.row id (docs.map (inputsOf accs))).get? name =
      some (acc.op.accumulate (docs.map acc.inputOf)) := by
  have hresults : results accs ((docs.map (inputsOf accs)).foldl feed accs.start) =
      accs.map fun a => (a.1, a.2.op.accumulate (docs.map a.2.inputOf)) := by
    rw [results, foldl_feed hdocs, ← List.map_prod_left_eq_zip, List.map_map]
    rfl
  have hkeys : (Fields.keys (accs.map fun a =>
      (a.1, a.2.op.accumulate (docs.map a.2.inputOf)))).Nodup := by
    rw [Fields.keys, List.map_map]
    exact hnames
  have hentry := List.mem_map_of_mem
    (f := fun a => (a.1, a.2.op.accumulate (docs.map a.2.inputOf))) hmem
  change Fields.get? (finish accs _ _) name = _
  rw [finish_eq, hresults]
  exact Fields.get?_foldl_insert_of_mem hkeys hentry _

end Accumulators

end DocStore
