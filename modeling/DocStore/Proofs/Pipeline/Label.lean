import DocStore.Proofs.Pipeline.Bucket
import DocStore.Proofs.Pipeline.BucketAuto

/-!
# Labels of buckets

Each row of `$bucket` and `$bucketAuto` is written under a label, which names the interval or the
range of its bucket, and then the accumulators of the stage are written into it. An accumulator may
have the name of the id, which neither stage reserves; then the row has what that one comes to in
place of its label: `labels_of_read`.
-/

set_option autoImplicit false

namespace DocStore

namespace Accumulators

/-! ## Rows under labels -/

variable {accs : Accumulators} {group : List Inputs} {states : List Accumulation} {label : Value}
  {name : String}

/-- An accumulator with a state puts what it has gathered under its name. -/
theorem exists_get?_finish (hlength : accs.length = states.length) (h : name ∈ accs.map (·.1))
    (out : Fields Value) : ∃ v, (name, v) ∈ results accs states ∧
      Fields.get? (finish accs states out) name = some v := by
  have hkeys : Fields.keys (results accs states) = accs.map (·.1) := by
    conv_rhs => rw [← List.map_fst_zip hlength.le, List.map_map]
    rw [results, Fields.keys, List.map_map]
    rfl
  rw [finish_eq]
  exact Fields.exists_get?_foldl_insert (hkeys ▸ h) out

theorem length_feed {inputs : Inputs} (h : states.length = inputs.length) :
    (feed states inputs).length = states.length := by
  rw [feed, List.length_zipWith, h, Nat.min_self]

/-- What accumulators have gathered from the inputs of documents. -/
def gathered (accs : Accumulators) (group : List Inputs) : List Accumulation :=
  group.foldl feed accs.start

theorem length_gathered (h : ∀ inputs ∈ group, accs.length = inputs.length) :
    accs.length = (accs.gathered group).length := by
  -- A step keeps the number of states, so it is left open what they have gathered before.
  have hfold (states : List Accumulation) (hlength : accs.length = states.length) :
      accs.length = (group.foldl feed states).length := by
    induction group generalizing states with
    | nil => exact hlength
    | cons inputs rest ih =>
        obtain ⟨hinputs, hrest⟩ := List.forall_mem_cons.1 h
        exact ih hrest _ (hlength.trans (length_feed (hlength.symm.trans hinputs)).symm)
  exact hfold _ (List.length_map _).symm

/-- A document that is evaluated gives an input to each accumulator. -/
theorem length_inputsOf {id : Expr} {doc : Value}
    (h : GroupStage.evaluates id accs doc = true) :
    accs.length = (GroupStage.inputsOf accs doc).length := by
  obtain ⟨key, -, hinputs⟩ := bind_eq_ok.1 (GroupStage.keyed_eq_ok id accs h)
  obtain ⟨inputs, hinputs, hsame⟩ := bind_eq_ok.1 hinputs
  cases hsame
  exact length_eq_of_mapM hinputs

/-- The row of documents under a label. -/
structure UnderLabel (accs : Accumulators) (label : Value) (members : List Value) (row : Value) :
    Prop where
  nonempty : members ≠ []
  row_eq : row = accs.row label (members.map (GroupStage.inputsOf accs))
  /-- The label is the id of the row, if no accumulator has the name of the id. -/
  kept : idField ∉ accs.map (·.1) → row.get? idField = some label
  /-- An accumulator of this name puts what it has gathered in the place of the label. -/
  replaced : idField ∈ accs.map (·.1) → ∃ v, (idField, v) ∈
    results accs (accs.gathered (members.map (GroupStage.inputsOf accs))) ∧
      row.get? idField = some v

theorem underLabel_row {id : Expr} {members : List Value} (hne : members ≠ [])
    (h : ∀ d ∈ members, GroupStage.evaluates id accs d = true) (label : Value) :
    UnderLabel accs label members
      (accs.row label (members.map (GroupStage.inputsOf accs))) where
  nonempty := hne
  row_eq := rfl
  kept hid := get?_row hid label _
  replaced hid := exists_get?_finish
    (length_gathered (List.forall_mem_map.2 fun d hd => length_inputsOf (h d hd))) hid _

/-! ## Names of accumulators -/

theorem gives_read_names (specs : List (String × Json)) :
    Gives (Accumulators.read [] specs) fun accs => accs.map (·.1) = Fields.keys specs := by
  induction specs with
  | nil => exact gives_pure rfl
  | cons e rest ih =>
      rw [Accumulators.read, if_neg (by simp)]
      split
      · exact gives_fail _
      · exact gives_bind (gives_any _) fun acc _ => gives_bind ih fun accs haccs =>
          gives_pure (congrArg (e.1 :: ·) haccs)

end Accumulators

/-- JSON that gives an accumulator with the name of the id. -/
def NamesId (j : Json) : Prop :=
  ∃ fields output, j = .object fields ∧ Fields.get? fields "output" = some (.object output) ∧
    idField ∈ Fields.keys output

namespace BucketStage

theorem gives_readOutput (stage : String) (fields : Fields Json) :
    Gives (readOutput stage fields) fun accs =>
      idField ∈ accs.map (·.1) ↔ NamesId (.object fields) := by
  unfold readOutput
  split
  · rename_i hnone
    refine gives_pure (iff_of_false (by decide) ?_)
    rintro ⟨_, output, ⟨⟩, houtput, -⟩
    rw [hnone] at houtput
    cases houtput
  · rename_i output houtput
    refine fun cache accs haccs => ?_
    show idField ∈ accs.map (·.1) ↔ _
    rw [Accumulators.gives_read_names output cache accs haccs]
    constructor
    · exact fun h => ⟨fields, output, rfl, houtput, h⟩
    · rintro ⟨_, output', ⟨⟩, houtput', h⟩
      rw [houtput] at houtput'
      cases houtput'
      exact h
  · exact gives_fail _

theorem gives_read_namesId (j : Json) :
    Gives (BucketStage.read j) fun s => idField ∈ s.output.map (·.1) ↔ NamesId j := by
  cases j with
  | object fields =>
      refine gives_bind (gives_any _) fun _ _ => gives_bind (gives_any _) fun groupBy _ => ?_
      refine gives_bind (gives_any _) fun raw _ => ?_
      dsimp only
      split
      · exact gives_fail _
      · exact gives_bind (gives_any _) fun _ _ => gives_bind (gives_any _) fun _ _ =>
          gives_bind (gives_any _) fun _ _ => gives_bind (gives_readOutput _ fields) fun _ h =>
            gives_pure h
  | _ => exact gives_fail _

end BucketStage

theorem BucketAutoStage.gives_read_namesId (j : Json) :
    Gives (BucketAutoStage.read j) fun s => idField ∈ s.output.map (·.1) ↔ NamesId j := by
  cases j with
  | object fields =>
      exact gives_bind (gives_any _) fun _ _ => gives_bind (gives_any _) fun _ _ =>
        gives_bind (gives_any _) fun _ _ => gives_bind (gives_any _) fun _ _ =>
          gives_bind (BucketStage.gives_readOutput _ fields) fun _ h => gives_pure h
  | _ => exact gives_fail _

/-! ## The buckets of rows -/

namespace BucketStage

variable {s : BucketStage} {docs : List Value} {label row : Value} {members : List Value}

/-- The documents that are placed in a bucket, none being the one for the rest. -/
def located (s : BucketStage) (docs : List Value) (bucket : Option Nat) : List Value :=
  (s.evaluated docs).filter fun d => locate? (s.keyOf d) s.boundaries == bucket

/-- A bucket with its label: the lower boundary of an interval that all of its documents lie in, or
the label of the bucket for the rest. -/
inductive Bucketed (s : BucketStage) (docs : List Value) : Value → List Value → Prop
  | between {i : Nat} {interval : Interval} (hi : (intervals s.boundaries)[i]? = some interval)
      (hinside : ∀ d ∈ s.located docs (some i), interval.contains (s.keyOf d) = true) :
      Bucketed s docs interval.lower (s.located docs (some i))
  | rest {label : Value} (hlabel : s.fallback = some label) :
      Bucketed s docs label (s.located docs none)

/-- A document is located in an interval that it lies in. -/
theorem contains_of_locate? {key : Value} {i : Nat} {interval : Interval}
    (hi : (intervals s.boundaries)[i]? = some interval)
    (h : locate? key s.boundaries = some i) : interval.contains key = true := by
  rw [locate?_eq, List.findIdx?_eq_some_iff_getElem] at h
  obtain ⟨hlt, hcontains, -⟩ := h
  obtain ⟨hlt', rfl⟩ := List.getElem?_eq_some_iff.1 hi
  exact hcontains

/-- A row is written under its label. -/
theorem underLabel_of_rowAt? {bucket : Option Nat}
    (h : rowAt? s.output label bucket ((s.evaluated docs).map s.placed) = some row) :
    s.output.UnderLabel label (s.located docs bucket) row := by
  have hinputs : inputsAt bucket ((s.evaluated docs).map s.placed) =
      (s.located docs bucket).map (GroupStage.inputsOf s.output) := by
    rw [inputsAt, List.filter_map, List.map_map]
    rfl
  have heval : ∀ d ∈ s.located docs bucket,
      GroupStage.evaluates s.groupBy s.output d = true := fun d hd =>
    (List.mem_filter.1 (List.mem_filter.1 hd).1).2
  rw [rowAt?, hinputs] at h
  by_cases hne : s.located docs bucket = []
  · rw [hne] at h
    cases h
  · rw [row?_foldl_feed s.output label (by simpa using hne)] at h
    cases h
    exact Accumulators.underLabel_row hne heval label

/-- **Each row of `$bucket`** is that of a bucket. -/
theorem exists_bucketed_of_run {index : Nat} {out : List Value}
    (h : (s.run index docs).result = .ok out) (hrow : row ∈ out) :
    ∃ label members, s.Bucketed docs label members ∧ s.output.UnderLabel label members row := by
  obtain ⟨-, rfl⟩ := result_run_eq_ok.1 h
  rw [rows_eq_rowAt?] at hrow
  rcases List.mem_append.1 hrow with hbetween | hrest
  · obtain ⟨⟨lower, i⟩, hlower, hrow⟩ := List.mem_filterMap.1 hbetween
    rw [← map_lower_intervals, List.mem_zipIdx_iff_getElem?, List.getElem?_map,
      Option.map_eq_some_iff] at hlower
    obtain ⟨interval, hi, rfl⟩ := hlower
    refine ⟨_, _, .between hi fun d hd => ?_, underLabel_of_rowAt? hrow⟩
    exact contains_of_locate? hi (by simpa using (List.mem_filter.1 hd).2)
  · obtain ⟨label, hlabel, hrow⟩ := Option.bind_eq_some_iff.1 (Option.mem_toList.1 hrest)
    exact ⟨label, _, .rest hlabel, underLabel_of_rowAt? hrow⟩

end BucketStage

namespace BucketAutoStage

variable {s : BucketAutoStage} {docs : List Value}

/-- The documents in the order of their group values, in runs with their ranges. -/
structure Ranged (s : BucketAutoStage) (docs : List Value) (runs : List (List Value))
    (ranges : List KeyRange) : Prop where
  sorted : runs.flatten = Sorting.sortBy s.compareKeys (s.evaluated docs)
  /-- A range starts at the first group value of its run. -/
  starts : List.Forall₂ (fun run range => ∃ d, run.head? = some d ∧ s.keyOf d = range.min)
    runs ranges
  /-- It ends where the next one starts. -/
  chained : ranges.IsChain fun range next => range.max = next.min
  /-- The last range ends at the last group value. -/
  last : ∀ range ∈ ranges.getLast?, ∃ d, runs.flatten.getLast? = some d ∧ s.keyOf d = range.max

/-- **Each row of `$bucketAuto`** is that of a run of documents. -/
theorem exists_ranged_of_run (hbuckets : 0 < s.buckets) {index : Nat} {out : List Value}
    (h : (s.run index docs).result = .ok out) : ∃ runs ranges, s.Ranged docs runs ranges ∧
      List.Forall₂ (fun e row => s.output.UnderLabel e.2.toValue e.1 row)
        (runs.zip ranges) out := by
  obtain ⟨-, rfl⟩ := rows_of_run h
  have hperm := Sorting.perm_sortBy s.compareKeys (s.evaluated docs)
  have hcuts := cuts_wanted hbuckets hperm.length_eq
  have hne := hcuts.ne_nil
  obtain ⟨runs, hflatten, hruns⟩ := exists_of_flatten_eq_map hcuts.flatten_eq
  rw [← hruns] at hne ⊢
  refine ⟨runs, ranges (s.entries runs), ⟨hflatten, ?_, chained_ranges hne,
    fun range => exists_getLast?_of_ranges hne⟩, ?_⟩
  · refine (List.forall₂_map_left_iff.1 (forall₂_ranges hne)).imp ?_
    rintro run range ⟨e, hhead, hmin⟩
    rw [List.head?_map, Option.map_eq_some_iff] at hhead
    obtain ⟨d, hd, rfl⟩ := hhead
    exact ⟨d, hd, hmin⟩
  · -- All documents of a run are evaluated, since the runs are cut from those that are.
    have hrows := s.rows_entries runs
    rw [entries] at hrows
    rw [hrows]
    refine List.forall₂_map_right_iff.2 (List.forall₂_same.2 fun e he => ?_)
    have hrun := (List.of_mem_zip he).1
    have heval : ∀ d ∈ e.1, GroupStage.evaluates s.groupBy s.output d = true := by
      intro d hd
      have hmem : d ∈ runs.flatten := List.mem_flatten.2 ⟨e.1, hrun, hd⟩
      rw [hflatten] at hmem
      exact (List.mem_filter.1 (hperm.subset hmem)).2
    refine Accumulators.underLabel_row (fun hnil => hne _ (List.mem_map_of_mem hrun) ?_)
      heval e.2.toValue
    rw [hnil]
    rfl

end BucketAutoStage

/-- **The ids of the rows** of both stages, whatever is read and whatever documents there are: each
row is that of a bucket, and its label is its id, unless the JSON of the stage gives an accumulator
with the name of the id. What this one has gathered is the id then. -/
theorem labels_of_read (j : Json) (cache : PatternCache) :
    (∀ s, ((BucketStage.read j : CachedReading BucketStage).run.run cache).1 = .ok s →
      (idField ∈ s.output.map (·.1) ↔ NamesId j) ∧
        ∀ index docs out, (s.run index docs).result = .ok out → ∀ row ∈ out,
          ∃ label members, s.Bucketed docs label members ∧
            s.output.UnderLabel label members row) ∧
    ∀ s, ((BucketAutoStage.read j : CachedReading BucketAutoStage).run.run cache).1 = .ok s →
      (idField ∈ s.output.map (·.1) ↔ NamesId j) ∧
        ∀ index docs out, (s.run index docs).result = .ok out →
          ∃ runs ranges, s.Ranged docs runs ranges ∧
            List.Forall₂ (fun e row => s.output.UnderLabel e.2.toValue e.1 row)
              (runs.zip ranges) out := by
  constructor
  · intro s hread
    exact ⟨BucketStage.gives_read_namesId j cache s hread,
      fun _ _ _ hrun _ hrow => BucketStage.exists_bucketed_of_run hrun hrow⟩
  · intro s hread
    have hbuckets := BucketAutoStage.gives_read j cache s hread
    exact ⟨BucketAutoStage.gives_read_namesId j cache s hread,
      fun _ _ _ hrun => BucketAutoStage.exists_ranged_of_run hbuckets hrun⟩

/-- The JSON of a stage that gathers products below a price of 10, and what it accumulates. -/
def below10 (output : Fields Json) : Json :=
  .object [("groupBy", .string "$price"), ("boundaries", .array [.ofInt 0, .ofInt 10]),
    ("default", .string "more"), ("output", .object output)]

/-- The stage that is read from it. -/
def below10Stage (output : Accumulators) : BucketStage :=
  { groupBy := .field "price", boundaries := [.int 0, .int 10], fallback := some (.string "more"),
    output }

theorem always_read_below10 {output : Fields Json} {accs : Accumulators}
    (h : Always (Accumulators.read [] output) accs) :
    Always (BucketStage.read (below10 output)) (below10Stage accs) := by
  have hprice : Always (Expr.read (.string "$price")) (.field "price") :=
    Expr.always_read_text fun _ => rfl
  have hfew : ¬ (Value.ofJsonItems [.ofInt 0, .ofInt 10]).length < 2 := by decide
  exact BucketStage.always_read rfl rfl hfew (fun _ => rfl) (fun _ => rfl) (fun _ => rfl) hprice h

/-- The sum of a one for each document. -/
theorem always_readOne_one (name : String) :
    Always (Accumulators.readOne name (.object [("$sum", .ofInt 1)]))
      { op := .sum, input := .literal (.int 1) } :=
  (Expr.always_read_number _).bind (always_pure _)

/-- Products are counted, in buckets of both kinds. -/
theorem labels_of_read_products :
    let products := [BucketAutoStage.priced 12, BucketAutoStage.priced 3]
    let j := below10 [("count", .object [("$sum", .ofInt 1)])]
    let s := below10Stage Accumulators.count
    let k : Json := .object [("groupBy", .string "$price"), ("buckets", .ofInt 1)]
    let t : BucketAutoStage :=
      { groupBy := .field "price", buckets := 1, output := Accumulators.count }
    let rows : List Value := [.object [("_id", .int 0), ("count", .int 1)],
      .object [("_id", .string "more"), ("count", .int 1)]]
    let range : BucketAutoStage.KeyRange := { min := .int 3, max := .int 12 }
    ((BucketStage.read j : CachedReading BucketStage).run.run .empty).1 = .ok s ∧
      (s.run 0 products).result = .ok rows ∧
      (∀ row ∈ rows, ∃ label members, s.Bucketed products label members ∧
        s.output.UnderLabel label members row) ∧
      ((BucketAutoStage.read k : CachedReading BucketAutoStage).run.run .empty).1 = .ok t ∧
      (t.run 0 products).result = .ok [.object [("_id", range.toValue), ("count", .int 2)]] ∧
      ∃ runs ranges, t.Ranged products runs ranges := by
  intro products j s k t rows range
  have hcount : Always (Accumulators.read [] [("count", .object [("$sum", .ofInt 1)])])
      Accumulators.count :=
    Accumulators.always_read_cons rfl (by simp [Segments.isOperator]) (always_readOne_one "count")
      (always_pure [])
  have hread := congrArg Prod.fst (always_read_below10 hcount .empty)
  have hone : (Json.ofInt 1).toUInt64?.filter (0 < ·) = some 1 := rfl
  have hreadAuto := congrArg Prod.fst (BucketAutoStage.always_read_price hone .empty)
  have hrun : (s.run 0 products).result = .ok rows := rfl
  have hrunAuto : (t.run 0 products).result =
      .ok [.object [("_id", range.toValue), ("count", .int 2)]] := rfl
  obtain ⟨runs, ranges, hranged, -⟩ :=
    ((labels_of_read k .empty).2 t hreadAuto).2 0 products _ hrunAuto
  exact ⟨hread, hrun, ((labels_of_read j .empty).1 s hread).2 0 products rows hrun, hreadAuto,
    hrunAuto, runs, ranges, hranged⟩

/-- A number of documents stands in the place of the lower boundary 0. -/
theorem not_label_of_read :
    ¬ ∀ (j : Json) (cache : PatternCache) (s : BucketStage),
      ((BucketStage.read j : CachedReading BucketStage).run.run cache).1 = .ok s →
        ∀ index docs out, (s.run index docs).result = .ok out → ∀ row ∈ out,
          ∃ label ∈ s.boundaries.dropLast ++ s.fallback.toList, row.get? idField = some label := by
  intro hall
  have hcounts : Always (Accumulators.read [] [("n", .object [("$sum", .ofInt 1)]),
      ("_id", .object [("$sum", .ofInt 1)])])
        [("n", { op := .sum, input := .literal (.int 1) }),
          ("_id", { op := .sum, input := .literal (.int 1) })] :=
    Accumulators.always_read_cons rfl (by simp [Segments.isOperator]) (always_readOne_one "n")
      (Accumulators.always_read_cons rfl (by simp [Segments.isOperator]) (always_readOne_one "_id")
        (always_pure []))
  have hread := congrArg Prod.fst (always_read_below10 hcounts .empty)
  have hrun : ((below10Stage [("n", { op := .sum, input := .literal (.int 1) }),
      ("_id", { op := .sum, input := .literal (.int 1) })]).run 0
        [BucketAutoStage.priced 5, BucketAutoStage.priced 6]).result =
          .ok [.object [("_id", .int 2), ("n", .int 2)]] := rfl
  obtain ⟨label, hlabel, hid⟩ := hall _ _ _ hread _ _ _ hrun _ List.mem_cons_self
  obtain rfl : .int 2 = label := Option.some.inj hid
  simp [below10Stage] at hlabel

end DocStore
