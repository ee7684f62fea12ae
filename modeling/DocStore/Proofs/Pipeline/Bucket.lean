import DocStore.Proofs.Expr.Reading
import DocStore.Proofs.Pipeline.Interval
import DocStore.Proofs.Pipeline.Keyed

/-!
# Buckets between boundaries

`$bucket` puts each document that it evaluates into the bucket of the interval that its group value
lies in, or into the bucket for the rest. The rows are those of the buckets that received documents,
in order, and each is what the stage gives on the documents of its bucket alone:
`BucketStage.gathers_of_read`.
-/

set_option autoImplicit false

namespace DocStore

namespace BucketStage

/-! ## Documents in buckets -/

/-- A bucket: the id of its row, and the group values that it holds. -/
structure Bucket where
  label : Value
  holds : Value → Bool

/-- Documents that are gathered under a label. -/
structure Group where
  label : Value
  docs : List Value

variable (s : BucketStage)

/-- The documents that the stage evaluates. -/
abbrev evaluated (docs : List Value) : List Value := GroupStage.evaluated s.groupBy s.output docs

/-- The group value of a document. -/
abbrev keyOf (doc : Value) : Value := GroupStage.keyOf s.groupBy doc

/-- The interval from the first boundary of the stage to its last one. -/
abbrev whole : Interval := span s.boundaries

/-- The buckets between boundaries, and then the one for the rest. -/
def buckets : List Bucket :=
  (intervals s.boundaries).map (fun i => ⟨i.lower, i.contains⟩) ++
    s.fallback.toList.map fun label => ⟨label, fun key => !s.whole.contains key⟩

/-- The documents of a bucket. -/
def members (docs : List Value) (b : Bucket) : List Value :=
  docs.filter fun d => b.holds (s.keyOf d)

/-- The group of a bucket, unless it is empty. -/
def group? (docs : List Value) (b : Bucket) : Option Group :=
  if (s.members docs b).isEmpty then none else some ⟨b.label, s.members docs b⟩

/-- Documents in those of some buckets that receive one of them. -/
def groupsIn (bs : List Bucket) (docs : List Value) : List Group := bs.filterMap (s.group? docs)

/-- The evaluated documents in buckets that receive one of them. -/
def groups (docs : List Value) : List Group := s.groupsIn s.buckets (s.evaluated docs)

/-- How the intervals divide group values. -/
structure Splits : Prop where
  ascending : s.boundaries.Pairwise fun a b => Value.compare a b = .lt
  /-- A value from the first boundary on and below the last one lies in exactly one interval. -/
  single : ∀ key : Value, key.Precise → s.whole.contains key = true →
    ∃ i, (intervals s.boundaries).filter (·.contains key) = [i]
  rest : ∀ key : Value, key.Precise → s.whole.contains key = false →
    (intervals s.boundaries).filter (·.contains key) = []

/-- What the stage does with documents. -/
structure Gathers (index : Nat) (docs : List Value) : Prop where
  /-- Without a bucket for the rest, a group value outside the boundaries is an error. -/
  refused : s.fallback = none → ∀ d ∈ s.evaluated docs, s.whole.contains (s.keyOf d) = false →
    ∃ e, (s.run index docs).result = .error e ∧ e.isConfig = true
  accepted : (s.fallback = none → ∀ d ∈ s.evaluated docs, s.whole.contains (s.keyOf d) = true) →
    ∃ rows, (s.run index docs).result = .ok rows
  /-- There is a row for each bucket that received a document, the row of these documents. -/
  rows : ∀ rows, (s.run index docs).result = .ok rows →
    List.Forall₂ (fun g row => row.get? idField = some g.label ∧
      ∀ index, (s.run index g.docs).result = .ok [row]) (s.groups docs) rows
  covered : ∀ rows, (s.run index docs).result = .ok rows →
    ∀ d ∈ s.evaluated docs, ∃! g, g ∈ s.groups docs ∧ d ∈ g.docs
  distinct : ∀ rows, (s.run index docs).result = .ok rows →
    (rows.filterMap (·.get? idField)).Pairwise fun a b => Value.equal a b = false

variable {s}

/-! ## Filling buckets -/

/-- What a bucket has gathered. -/
def Filling.holding (filling : Filling) : Option Nat → Option (List Accumulation)
  | some n => filling.between[n]?.join
  | none => filling.rest

/-- Whether there is such a bucket. -/
def Filling.Has (filling : Filling) (place : Option Nat) : Prop :=
  ∀ n ∈ place, n < filling.between.length

/-- Adds placed documents to their buckets, one after the other. -/
def gatherAll (accs : Accumulators) (filling : Filling) (placed : List (Option Nat × Inputs)) :
    Filling :=
  placed.foldl (gather accs) filling

/-- The inputs of what is placed in a bucket. -/
def inputsAt (place : Option Nat) (placed : List (Option Nat × Inputs)) : List Inputs :=
  (placed.filter (·.1 == place)).map (·.2)

/-- The row of a bucket that is filled with its own documents only. -/
def rowAt? (accs : Accumulators) (id : Value) (place : Option Nat)
    (placed : List (Option Nat × Inputs)) : Option Value :=
  row? accs id ((inputsAt place placed).foldl (feed accs) none)

section Filling

variable (accs : Accumulators)

@[simp]
theorem holding_empty (count : Nat) (place : Option Nat) :
    (Filling.empty count).holding place = none := by
  cases place with
  | none => rfl
  | some n =>
      rw [Filling.holding, Filling.empty, List.getElem?_replicate]
      split <;> rfl

@[simp]
theorem length_between_gather (filling : Filling) (p : Option Nat × Inputs) :
    (gather accs filling p).between.length = filling.between.length := by
  obtain ⟨_ | n, inputs⟩ := p
  · rfl
  · exact List.length_modify _ _ _

theorem holding_gather_self {filling : Filling} {p : Option Nat × Inputs} (h : filling.Has p.1) :
    (gather accs filling p).holding p.1 = feed accs (filling.holding p.1) p.2 := by
  obtain ⟨_ | n, inputs⟩ := p
  · rfl
  · have hlt : n < filling.between.length := h n rfl
    simp [gather, Filling.holding, hlt]

theorem holding_gather_of_ne (filling : Filling) {p : Option Nat × Inputs} {place : Option Nat}
    (h : p.1 ≠ place) : (gather accs filling p).holding place = filling.holding place := by
  obtain ⟨_ | n, inputs⟩ := p
  · cases place with
    | none => exact absurd rfl h
    | some m => rfl
  · cases place with
    | none => rfl
    | some m =>
        have hne : n ≠ m := fun heq => h (congrArg some heq)
        simp [gather, Filling.holding, hne]

@[simp]
theorem length_between_gatherAll (filling : Filling) (placed : List (Option Nat × Inputs)) :
    (gatherAll accs filling placed).between.length = filling.between.length := by
  induction placed generalizing filling with
  | nil => rfl
  | cons p rest ih => exact (ih (gather accs filling p)).trans (length_between_gather accs _ _)

/-- **Buckets do not mix.** What a bucket gathers is fed from its own documents. -/
theorem holding_gatherAll {filling : Filling} {place : Option Nat} (h : filling.Has place)
    (placed : List (Option Nat × Inputs)) :
    (gatherAll accs filling placed).holding place =
      (inputsAt place placed).foldl (feed accs) (filling.holding place) := by
  induction placed generalizing filling with
  | nil => rfl
  | cons p rest ih =>
      have hhas : (gather accs filling p).Has place := fun n hn =>
        (h n hn).trans_eq (length_between_gather accs filling p).symm
      refine (ih hhas).trans ?_
      rw [inputsAt, inputsAt, List.filter_cons]
      by_cases hplace : p.1 = place
      · subst hplace
        rw [if_pos (beq_self_eq_true _), List.map_cons, List.foldl_cons, holding_gather_self accs h]
      · rw [if_neg (by simpa using hplace), holding_gather_of_ne accs filling hplace]

/-- The row of a bucket that received documents. -/
theorem row?_foldl_feed (id : Value) {group : List Inputs} (h : group ≠ []) :
    row? accs id (group.foldl (feed accs) none) = some (accs.row id group) := by
  have hfold (states : List Accumulation) (rest : List Inputs) :
      rest.foldl (feed accs) (some states) = some (rest.foldl Accumulators.feed states) := by
    induction rest generalizing states with
    | nil => rfl
    | cons inputs rest ih => exact ih (Accumulators.feed states inputs)
  obtain ⟨first, rest, rfl⟩ := List.exists_cons_of_ne_nil h
  rw [List.foldl_cons, feed, Option.getD_none, hfold]
  rfl

/-- Boundaries beside the buckets that start at them. -/
theorem zip_between {boundaries : List Value} {filling : Filling}
    (h : filling.between.length = boundaries.length - 1) :
    boundaries.zip filling.between =
      boundaries.dropLast.zipIdx.map fun b => (b.1, filling.holding (some b.2)) := by
  refine List.ext_getElem (by simp [h]) fun n hzip hmap => ?_
  have hlt : n < filling.between.length := (List.length_zip ▸ hzip).trans_le (min_le_right _ _)
  simp [Filling.holding, hlt]

end Filling

/-- **The rows**, with each bucket filled on its own. -/
theorem rows_eq_rowAt? (placed : List (Option Nat × Inputs)) : s.rows placed =
    s.boundaries.dropLast.zipIdx.filterMap (fun b => rowAt? s.output b.1 (some b.2) placed) ++
      (s.fallback.bind fun label => rowAt? s.output label none placed).toList := by
  obtain ⟨filling, hfilling⟩ : ∃ filling,
      filling = gatherAll s.output (.empty (s.boundaries.length - 1)) placed := ⟨_, rfl⟩
  have hrows : s.rows placed =
      (s.boundaries.zip filling.between).filterMap (fun b => row? s.output b.1 b.2) ++
        (s.fallback.bind fun label => row? s.output label filling.rest).toList := by
    rw [hfilling]
    rfl
  have hlength : filling.between.length = s.boundaries.length - 1 := by
    rw [hfilling, length_between_gatherAll]
    exact List.length_replicate
  have hholding (place : Option Nat) (h : ∀ n ∈ place, n < s.boundaries.length - 1) :
      filling.holding place = (inputsAt place placed).foldl (feed s.output) none := by
    rw [hfilling, holding_gatherAll s.output fun n hn => (h n hn).trans_eq
      List.length_replicate.symm, holding_empty]
  have hrest : filling.rest = (inputsAt none placed).foldl (feed s.output) none :=
    hholding none (by simp)
  rw [hrows, hrest, zip_between hlength, List.filterMap_map]
  refine congrArg (· ++ _) (List.filterMap_congr fun b hb => ?_)
  refine congrArg (row? s.output b.1) (hholding (some b.2) fun n hn => ?_)
  cases hn
  exact (List.snd_lt_of_mem_zipIdx hb).trans_eq List.length_dropLast

/-! ## Runs -/

theorem place_of_evaluates {doc : Value}
    (h : GroupStage.evaluates s.groupBy s.output doc = true) : s.place doc =
      if (locate? (s.keyOf doc) s.boundaries).isNone && s.fallback.isNone
        then .error (StageFault.toError (.outside (s.keyOf doc)))
        else .ok (locate? (s.keyOf doc) s.boundaries, GroupStage.inputsOf s.output doc) := by
  rw [place, GroupStage.keyed_eq_ok _ _ h]
  rfl

theorem place_of_not_evaluates {doc : Value}
    (h : GroupStage.evaluates s.groupBy s.output doc ≠ true) :
    ∃ e, s.place doc = .error e ∧ e.isDocumentLocal = true := by
  cases hkeyed : GroupStage.keyed s.groupBy s.output doc with
  | ok e => exact absurd (GroupStage.evaluates_of_keyed _ _ hkeyed) h
  | error e =>
      refine ⟨e, ?_, GroupStage.failsLocally_keyed _ _ doc e hkeyed⟩
      rw [place, hkeyed]
      rfl

/-- Every group value is located, unless there is a bucket for the rest. -/
def Locates (s : BucketStage) (docs : List Value) : Prop :=
  s.fallback = none → ∀ d ∈ s.evaluated docs, (locate? (s.keyOf d) s.boundaries).isSome = true

/-- Where an evaluated document is placed, with its inputs. -/
def placed (s : BucketStage) (doc : Value) : Option Nat × Inputs :=
  (locate? (s.keyOf doc) s.boundaries, GroupStage.inputsOf s.output doc)

theorem failsLocally_place_iff {docs : List Value} :
    (∀ d ∈ docs, FailsLocally (s.place d)) ↔ s.Locates docs := by
  constructor
  · intro h hfallback d hd
    obtain ⟨hmem, heval⟩ := List.mem_filter.1 hd
    cases hlocate : locate? (s.keyOf d) s.boundaries with
    | some n => rfl
    | none =>
        -- What is outside is an error of the configuration, and none of a single document.
        have hplace := place_of_evaluates heval
        rw [hlocate, hfallback] at hplace
        cases h d hmem _ hplace
  · intro h d hd
    by_cases heval : GroupStage.evaluates s.groupBy s.output d = true
    · rw [place_of_evaluates heval]
      split
      · rename_i houtside
        rw [Bool.and_eq_true, Option.isNone_iff_eq_none, Option.isNone_iff_eq_none] at houtside
        have hlocated := h houtside.2 d (List.mem_filter.2 ⟨hd, heval⟩)
        rw [houtside.1] at hlocated
        cases hlocated
      · exact failsOnly_ok _
    · obtain ⟨e, hplace, hlocal⟩ := place_of_not_evaluates heval
      rw [hplace]
      exact failsOnly_error hlocal

theorem filterMap_place {docs : List Value} (h : s.Locates docs) :
    (docs.map s.place).filterMap Except.toOption = (s.evaluated docs).map s.placed := by
  refine Run.filterMap_toOption fun d hd => ?_
  have hlocal := failsLocally_place_iff.2 h d hd
  by_cases heval : GroupStage.evaluates s.groupBy s.output d = true
  · rw [if_pos heval]
    rw [place_of_evaluates heval] at hlocal ⊢
    split at hlocal
    · cases hlocal _ rfl
    · rename_i hinside
      rw [if_neg hinside]
      rfl
  · obtain ⟨e, hplace, -⟩ := place_of_not_evaluates heval
    rw [if_neg heval, hplace]
    rfl

/-- **What a run gives.** -/
theorem result_run_eq_ok {index : Nat} {docs out : List Value} :
    (s.run index docs).result = .ok out ↔
      s.Locates docs ∧ out = s.rows ((s.evaluated docs).map s.placed) := by
  rw [run, Run.result_bind_eq_ok]
  constructor
  · rintro ⟨kept, hkept, h⟩
    obtain ⟨hlocal, rfl⟩ := (Run.result_keepAll_eq_ok _ _).1 hkept
    have hlocates := failsLocally_place_iff.1 (List.forall_mem_map.1 hlocal)
    obtain ⟨-, -, h⟩ := Run.result_bind_eq_ok.1 h
    cases h
    exact ⟨hlocates, by rw [filterMap_place hlocates]⟩
  · rintro ⟨hlocates, rfl⟩
    refine ⟨_, (Run.result_keepAll_eq_ok _ _).2
      ⟨List.forall_mem_map.2 (failsLocally_place_iff.2 hlocates), rfl⟩, ?_⟩
    rw [filterMap_place hlocates]
    rfl

/-- A run that does not give rows ends in an error of the configuration. -/
theorem exists_error_of_not_locates {index : Nat} {docs : List Value} (h : ¬ s.Locates docs) :
    ∃ e, (s.run index docs).result = .error e ∧ e.isConfig = true := by
  have hfails : Run.Fails (·.isConfig = true) (s.run index docs) :=
    (Run.fails_keepAll_map index _ s.failsLocallyOr_place docs).bind fun placed =>
      (Run.fails_note _ _).bind fun _ => Run.fails_ok _
  cases hresult : (s.run index docs).result with
  | ok out => exact absurd (result_run_eq_ok.1 hresult).1 h
  | error e => exact ⟨e, rfl, hfails.result e hresult⟩

/-! ## Groups -/

/-- The row of a group. -/
def rowOf (s : BucketStage) (g : Group) : Value :=
  s.output.row g.label (g.docs.map (GroupStage.inputsOf s.output))

/-- The row of what is placed in a bucket. -/
theorem rowAt?_placed {docs : List Value} {b : Bucket} {place : Option Nat}
    (h : ∀ d ∈ docs, locate? (s.keyOf d) s.boundaries = place ↔ b.holds (s.keyOf d) = true) :
    rowAt? s.output b.label place (docs.map s.placed) = (s.group? docs b).map s.rowOf := by
  have hinputs : inputsAt place (docs.map s.placed) =
      (s.members docs b).map (GroupStage.inputsOf s.output) := by
    rw [inputsAt, List.filter_map, List.map_map, members]
    refine congrArg (List.map _) (List.filter_congr fun d hd => ?_)
    rw [Bool.eq_iff_iff, ← h d hd]
    exact beq_iff_eq
  rw [rowAt?, hinputs, group?]
  cases hmembers : s.members docs b with
  | nil => rfl
  | cons d rest =>
      rw [row?_foldl_feed s.output b.label (by simp)]
      rfl

theorem members_members {docs : List Value} (b : Bucket) :
    s.members (s.members docs b) b = s.members docs b := by
  rw [members, members, List.filter_filter]
  simp only [Bool.and_self]

theorem mem_groupsIn {bs : List Bucket} {docs : List Value} {g : Group} :
    g ∈ s.groupsIn bs docs ↔
      ∃ b ∈ bs, s.members docs b ≠ [] ∧ g = ⟨b.label, s.members docs b⟩ := by
  rw [groupsIn, List.mem_filterMap]
  refine exists_congr fun b => and_congr_right fun _ => ?_
  rw [group?, ← List.isEmpty_eq_false_iff, eq_comm (a := g)]
  cases (s.members docs b).isEmpty <;> simp

theorem label_buckets :
    s.buckets.map Bucket.label = s.boundaries.dropLast ++ s.fallback.toList := by
  rw [buckets, List.map_append, List.map_map, List.map_map, ← map_lower_intervals]
  simp [Function.comp_def]

theorem label_group? {docs : List Value} {b : Bucket} {g : Group} (h : s.group? docs b = some g) :
    g.label = b.label := by
  unfold group? at h
  split at h
  · cases h
  · cases h
    rfl

/-- The labels of groups are those of some of the buckets, in their order. -/
theorem label_groupsIn_sublist (bs : List Bucket) (docs : List Value) :
    ((s.groupsIn bs docs).map Group.label).Sublist (bs.map Bucket.label) := by
  induction bs with
  | nil => exact .slnil
  | cons b rest ih =>
      rw [groupsIn, List.map_cons]
      cases hgroup : s.group? docs b with
      | none =>
          rw [List.filterMap_cons_none hgroup]
          exact ih.cons _
      | some g =>
          rw [List.filterMap_cons_some hgroup, List.map_cons, label_group? hgroup]
          exact ih.cons_cons _

/-! ## Buckets apart from one another -/

/-- Two buckets hold no value in common. -/
def Bucket.Apart (b c : Bucket) : Prop :=
  ∀ key : Value, key.Precise → b.holds key = true → c.holds key = false

theorem Bucket.Apart.symm {b c : Bucket} (h : b.Apart c) : c.Apart b := by
  intro key hkey hheld
  rw [← Bool.not_eq_true]
  intro hholds
  rw [h key hkey hholds] at hheld
  cases hheld

instance : Std.Symm Bucket.Apart where
  symm _ _ := Bucket.Apart.symm

/-- The documents of a bucket lie in no other one. -/
theorem groupsIn_members {bs : List Bucket} {docs : List Value} (hapart : bs.Pairwise Bucket.Apart)
    (hprecise : ∀ d ∈ docs, (s.keyOf d).Precise) {b : Bucket} (hb : b ∈ bs)
    (hne : s.members docs b ≠ []) :
    s.groupsIn bs (s.members docs b) = [⟨b.label, s.members docs b⟩] := by
  have hnone {c : Bucket} (h : b.Apart c) : s.group? (s.members docs b) c = none := by
    have hempty : s.members (s.members docs b) c = [] :=
      List.filter_eq_nil_iff.2 fun d hd => by
        obtain ⟨hmem, hholds⟩ := List.mem_filter.1 hd
        simp [h _ (hprecise d hmem) hholds]
    rw [group?, hempty]
    rfl
  have hself : s.group? (s.members docs b) b = some ⟨b.label, s.members docs b⟩ := by
    rw [group?, members_members, if_neg (by simpa using hne)]
  -- On the documents of a bucket, those before it and after it receive nothing.
  obtain ⟨before, after, rfl⟩ := List.append_of_mem hb
  rw [List.pairwise_append, List.pairwise_cons] at hapart
  obtain ⟨-, ⟨hafter, -⟩, hbefore⟩ := hapart
  have hlater : after.filterMap (s.group? (s.members docs b)) = [] :=
    List.filterMap_eq_nil_iff.2 fun c hc => hnone (hafter c hc)
  have hearlier : before.filterMap (s.group? (s.members docs b)) = [] :=
    List.filterMap_eq_nil_iff.2 fun c hc => hnone (hbefore c hc b List.mem_cons_self).symm
  rw [groupsIn, List.filterMap_append, List.filterMap_cons, hself, hlater, hearlier,
    List.nil_append]

/-! ## Boundaries in ascending order -/

section Scale

variable {rank : Nat} (hscale : Scale rank s.boundaries) (hwhole : Spans s.whole s.boundaries)
include hscale hwhole

/-- **The rows of a run** are those of the groups. -/
theorem rows_eq {docs : List Value} (hprecise : ∀ d ∈ docs, (s.keyOf d).Precise) :
    s.rows (docs.map s.placed) = (s.groupsIn s.buckets docs).map s.rowOf := by
  have hbetween : s.boundaries.dropLast.zipIdx.filterMap
      (fun b => rowAt? s.output b.1 (some b.2) (docs.map s.placed)) =
        (intervals s.boundaries).filterMap fun i =>
          (s.group? docs ⟨i.lower, i.contains⟩).map s.rowOf := by
    -- A bucket is named by the lower end of its interval, and found by its number.
    rw [← map_lower_intervals, List.zipIdx_map, List.filterMap_map]
    conv_rhs => rw [← List.zipIdx_map_fst 0 (intervals s.boundaries), List.filterMap_map]
    refine List.filterMap_congr fun e he => ?_
    refine rowAt?_placed (b := ⟨e.1.lower, e.1.contains⟩) fun d hd => ?_
    exact hscale.locate?_eq_some_iff (hprecise d hd) (List.mem_zipIdx_iff_getElem?.1 he)
  have hrest (label : Value) : rowAt? s.output label none (docs.map s.placed) =
      (s.group? docs ⟨label, fun key => !s.whole.contains key⟩).map s.rowOf := by
    refine rowAt?_placed (b := ⟨label, fun key => !s.whole.contains key⟩) fun d hd => ?_
    rw [hscale.locate?_eq_none_iff hwhole (hprecise d hd), Bool.not_eq_true']
  rw [rows_eq_rowAt?, hbetween, groupsIn, buckets, List.map_filterMap, List.filterMap_append,
    List.filterMap_map, List.filterMap_map]
  refine congrArg _ ?_
  cases s.fallback with
  | none => rfl
  | some label =>
      rw [Option.bind_some, hrest]
      cases hgroup : s.group? docs ⟨label, fun key => !s.whole.contains key⟩ <;> simp [hgroup]

theorem apart_buckets : s.buckets.Pairwise Bucket.Apart := by
  refine List.pairwise_append.2 ⟨List.pairwise_map.2 hscale.disjoint, List.pairwise_map.2 ?_, ?_⟩
  · cases s.fallback with
    | none => exact .nil
    | some label => exact List.pairwise_singleton _ _
  · refine List.forall_mem_map.2 fun i hi => List.forall_mem_map.2 fun label _ => ?_
    intro key hkey hcontains
    have hinside := hscale.whole_contains hwhole hkey hi hcontains
    simp [hinside]

theorem exists_holds {key : Value} (h : s.fallback = none → s.whole.contains key = true) :
    ∃ b ∈ s.buckets, b.holds key = true := by
  cases hcontains : s.whole.contains key with
  | true =>
      obtain ⟨i, hi, hholds⟩ := hscale.exists_contains hwhole hcontains
      exact ⟨_, List.mem_append_left _ (List.mem_map_of_mem hi), hholds⟩
  | false =>
      obtain ⟨label, hlabel⟩ : ∃ label, s.fallback = some label := by
        rw [← Option.ne_none_iff_exists']
        intro hnone
        rw [h hnone] at hcontains
        cases hcontains
      refine ⟨_, List.mem_append_right _ (List.mem_map_of_mem (Option.mem_toList.2 hlabel)), ?_⟩
      simp [hcontains]

/-- Each document is in exactly one group. -/
theorem existsUnique_group {docs : List Value} {d : Value} (hd : d ∈ docs)
    (hprecise : (s.keyOf d).Precise)
    (hfallback : s.fallback = none → s.whole.contains (s.keyOf d) = true) :
    ∃! g, g ∈ s.groupsIn s.buckets docs ∧ d ∈ g.docs := by
  obtain ⟨b, hb, hholds⟩ := exists_holds hscale hwhole hfallback
  have hmember : d ∈ s.members docs b := List.mem_filter.2 ⟨hd, hholds⟩
  refine ⟨⟨b.label, s.members docs b⟩,
    ⟨mem_groupsIn.2 ⟨b, hb, List.ne_nil_of_mem hmember, rfl⟩, hmember⟩, ?_⟩
  rintro g ⟨hg, hdg⟩
  obtain ⟨c, hc, -, rfl⟩ := mem_groupsIn.1 hg
  by_cases heq : c = b
  · rw [heq]
  · -- Two buckets that both hold the group value are the same one.
    have hapart := (apart_buckets hscale hwhole).forall hc hb heq
    rw [hapart _ hprecise (List.mem_filter.1 hdg).2] at hholds
    cases hholds

/-- No two buckets have equal labels. -/
theorem differ_label_buckets (houtside : ∀ label ∈ s.fallback, s.whole.contains label = false) :
    (s.buckets.map Bucket.label).Pairwise fun a b => Value.equal a b = false := by
  rw [label_buckets, List.pairwise_append]
  refine ⟨?_, ?_, fun lower hlower label hlabel => ?_⟩
  · have hdiffer : s.boundaries.Pairwise fun a b => Value.equal a b = false := by
      refine hscale.ascending.imp_of_mem fun {a b} ha _ hlt => ?_
      rw [← Bool.not_eq_true]
      intro hequal
      rw [(Value.compare_of_equal hequal (hscale.sameClass a ha).2).2.2] at hlt
      cases hlt
    exact hdiffer.sublist (List.dropLast_sublist _)
  · cases s.fallback with
    | none => exact .nil
    | some label => exact List.pairwise_singleton _ _
  · -- A label that is equal to a boundary would lie between the first one and the last.
    rw [← map_lower_intervals] at hlower
    obtain ⟨i, hi, rfl⟩ := List.mem_map.1 hlower
    rw [← Bool.not_eq_true]
    intro hequal
    have hinside := hscale.whole_contains_of_equal hwhole hi hequal
    rw [houtside label (Option.mem_toList.1 hlabel)] at hinside
    cases hinside

/-- The group values of documents are located where they lie between the boundaries. -/
theorem locates_iff {docs : List Value}
    (hprecise : ∀ d ∈ s.evaluated docs, (s.keyOf d).Precise) : s.Locates docs ↔
      (s.fallback = none → ∀ d ∈ s.evaluated docs, s.whole.contains (s.keyOf d) = true) := by
  refine forall_congr' fun _ => forall_congr' fun d => forall_congr' fun hd => ?_
  rw [Option.isSome_iff_ne_none, ne_eq, hscale.locate?_eq_none_iff hwhole (hprecise d hd),
    Bool.not_eq_false]

end Scale

/-! ## What the stage does -/

/-- What is required of a stage. -/
structure Accepted (s : BucketStage) : Prop where
  two : 2 ≤ s.boundaries.length
  ascending : s.boundaries.IsChain fun a b => Value.compareSameClass? a b = some .lt
  outside : ∀ label ∈ s.fallback, s.whole.contains label = false

theorem Accepted.spans (h : s.Accepted) : Spans s.whole s.boundaries :=
  spans_span (List.ne_nil_of_length_pos (Nat.lt_of_lt_of_le Nat.two_pos h.two))

theorem Accepted.splits (h : s.Accepted) (hprecise : ∀ b ∈ s.boundaries, b.Precise) : s.Splits := by
  obtain ⟨rank, hscale⟩ := exists_scale h.ascending h.two hprecise
  exact {
    ascending := hscale.ascending
    single := fun key hkey hcontains => hscale.exists_filter_eq_singleton h.spans hkey hcontains
    rest := fun key hkey hcontains => hscale.filter_eq_nil h.spans hkey hcontains }

theorem evaluated_of_subset {docs group : List Value} (h : group ⊆ s.evaluated docs) :
    s.evaluated group = group :=
  List.filter_eq_self.2 fun _ hd => (List.mem_filter.1 (h hd)).2

section Gathers

variable {index : Nat} {docs rows : List Value} (h : s.Accepted)
  (hprecise : ∀ b ∈ s.boundaries, b.Precise)
  (hkeys : ∀ d ∈ s.evaluated docs, (s.keyOf d).Precise)
include h hprecise hkeys

theorem Accepted.result_run_eq_ok : (s.run index docs).result = .ok rows ↔
    (s.fallback = none → ∀ d ∈ s.evaluated docs, s.whole.contains (s.keyOf d) = true) ∧
      rows = (s.groups docs).map s.rowOf := by
  obtain ⟨rank, hscale⟩ := exists_scale h.ascending h.two hprecise
  rw [BucketStage.result_run_eq_ok, locates_iff hscale h.spans hkeys,
    rows_eq hscale h.spans hkeys]
  rfl

/-- **The row of a group** is what the stage gives on its documents. -/
theorem Accepted.result_run_group {g : Group} (hg : g ∈ s.groups docs)
    (hlocates : s.fallback = none → ∀ d ∈ s.evaluated docs, s.whole.contains (s.keyOf d) = true) :
    (s.run index g.docs).result = .ok [s.rowOf g] := by
  obtain ⟨rank, hscale⟩ := exists_scale h.ascending h.two hprecise
  obtain ⟨b, hb, hne, rfl⟩ := mem_groupsIn.1 hg
  have hsubset : s.members (s.evaluated docs) b ⊆ s.evaluated docs := List.filter_subset_self _
  have hevaluated := evaluated_of_subset hsubset
  refine (Accepted.result_run_eq_ok h hprecise ?_).2 ⟨?_, ?_⟩
  · rw [hevaluated]
    exact fun d hd => hkeys d (hsubset hd)
  · rw [hevaluated]
    exact fun hnone d hd => hlocates hnone d (hsubset hd)
  · rw [groups, hevaluated, groupsIn_members (apart_buckets hscale h.spans) hkeys hb hne]
    rfl

theorem Accepted.gathers (hid : idField ∉ s.output.map (·.1)) : s.Gathers index docs := by
  obtain ⟨rank, hscale⟩ := exists_scale h.ascending h.two hprecise
  exact {
    refused := by
      intro hnone d hd hcontains
      refine exists_error_of_not_locates fun hlocates => ?_
      rw [(locates_iff hscale h.spans hkeys).1 hlocates hnone d hd] at hcontains
      cases hcontains
    accepted := fun hinside => ⟨_, (h.result_run_eq_ok hprecise hkeys).2 ⟨hinside, rfl⟩⟩
    rows := by
      intro rows hrows
      obtain ⟨hinside, rfl⟩ := (h.result_run_eq_ok hprecise hkeys).1 hrows
      refine List.forall₂_map_right_iff.2 (List.forall₂_same.2 fun g hg => ⟨?_, fun index => ?_⟩)
      · exact Accumulators.get?_row hid g.label _
      · exact h.result_run_group hprecise hkeys hg hinside
    covered := by
      intro rows hrows d hd
      obtain ⟨hinside, -⟩ := (h.result_run_eq_ok hprecise hkeys).1 hrows
      exact existsUnique_group hscale h.spans hd (hkeys d hd) fun hnone => hinside hnone d hd
    distinct := by
      intro rows hrows
      obtain ⟨-, rfl⟩ := (h.result_run_eq_ok hprecise hkeys).1 hrows
      have hids : ((s.groups docs).map s.rowOf).filterMap (·.get? idField) =
          (s.groups docs).map Group.label := by
        rw [List.filterMap_map, ← List.filterMap_eq_map]
        exact List.filterMap_congr fun g _ => Accumulators.get?_row hid g.label _
      rw [hids]
      exact (differ_label_buckets hscale h.spans h.outside).sublist (label_groupsIn_sublist _ _) }

end Gathers

/-! ## Reading -/

theorem gives_checkBoundaries : ∀ boundaries : List Value, Gives (checkBoundaries boundaries)
    fun _ => boundaries.IsChain fun a b => Value.compareSameClass? a b = some .lt
  | [] => gives_pure .nil
  | [a] => gives_pure (.singleton a)
  | a :: b :: rest => by
      rw [checkBoundaries]
      split
      · rename_i hlt
        rw [Bool.and_eq_true, beq_iff_eq] at hlt
        exact fun cache u hu => .cons_cons hlt.1 (gives_checkBoundaries (b :: rest) cache u hu)
      · exact gives_fail _

theorem gives_checkFallback {boundaries : List Value} (hne : boundaries ≠ [])
    (fallback : Option Value) : Gives (checkFallback boundaries fallback)
      fun _ => ∀ label ∈ fallback, (span boundaries).contains label = false := by
  have hspans := spans_span hne
  cases fallback with
  | none => exact gives_pure fun _ hlabel => nomatch hlabel
  | some label =>
      simp only [checkFallback, hspans.lower, hspans.upper]
      split
      · exact gives_fail _
      · rename_i houtside
        refine gives_pure fun label' hlabel' => ?_
        cases hlabel'
        exact Bool.not_eq_true _ ▸ houtside

/-- **What is read is accepted.** -/
theorem gives_read (j : Json) : Gives (BucketStage.read j) Accepted := by
  cases j with
  | object fields =>
      refine gives_bind (gives_any _) fun _ _ => gives_bind (gives_any _) fun groupBy _ => ?_
      refine gives_bind (gives_any _) fun raw _ => ?_
      dsimp only
      split
      · exact gives_fail _
      · rename_i hlength
        have htwo : 2 ≤ (Value.ofJsonItems raw).length := Nat.le_of_not_lt hlength
        have hne : Value.ofJsonItems raw ≠ [] := List.ne_nil_of_length_pos (by omega)
        refine gives_bind (gives_checkBoundaries _) fun _ hascending => ?_
        refine gives_bind (gives_checkFallback hne _) fun _ houtside => ?_
        refine gives_bind (gives_any _) fun groupBy _ => gives_bind (gives_any _) fun output _ => ?_
        exact gives_pure ⟨htwo, hascending, houtside⟩
  | _ => exact gives_fail _

/-- **Buckets between boundaries.** Whatever `$bucket` stage is read that leaves the id to the rows:
if all integers among its boundaries and the group values are precise, its intervals split the group
values, and it gathers the documents accordingly. -/
theorem gathers_of_read {j : Json} {cache : PatternCache}
    (hread : ((BucketStage.read j : CachedReading BucketStage).run.run cache).1 = .ok s)
    (hid : idField ∉ s.output.map (·.1)) (hprecise : ∀ b ∈ s.boundaries, b.Precise) {index : Nat}
    {docs : List Value} (hkeys : ∀ d ∈ s.evaluated docs, (s.keyOf d).Precise) :
    s.Splits ∧ s.Gathers index docs := by
  have haccepted := gives_read j cache s hread
  exact ⟨haccepted.splits hprecise, haccepted.gathers hprecise hkeys hid⟩

/-- A stage that names no pattern is read with every cache if its parts pass what is checked. -/
theorem always_read {fields : Fields Json} {j : Json} {items : List Json} {e : Expr}
    {accs : Accumulators} (hgroupBy : Fields.get? fields "groupBy" = some j)
    (hitems : (Fields.get? fields "boundaries").bind Json.array? = some items)
    (hfew : ¬ (Value.ofJsonItems items).length < 2)
    (hkeys : Always
      (checkKeys "$bucket" ["groupBy", "boundaries", "default", "output"] fields) ())
    (hboundaries : Always (checkBoundaries (Value.ofJsonItems items)) ())
    (hfallback : Always (checkFallback (Value.ofJsonItems items)
      ((Fields.get? fields "default").map Value.ofJson)) ())
    (hread : Always (Expr.read j) e) (houtput : Always (readOutput "$bucket" fields) accs) :
    Always (BucketStage.read (.object fields))
      { groupBy := e, boundaries := Value.ofJsonItems items,
        fallback := (Fields.get? fields "default").map Value.ofJson, output := accs } := by
  refine hkeys.bind ((always_require hgroupBy _).bind ((always_require hitems _).bind ?_))
  rw [if_neg hfew]
  exact hboundaries.bind (hfallback.bind (hread.bind (houtput.bind (always_pure _))))

/-- A visitor of an age. -/
def aged (n : Int64) : Value := .object [("age", .int n)]

/-- The stage that counts minors and adults, and all others apart. -/
def byAge : BucketStage where
  groupBy := .field "age"
  boundaries := [.int 0, .int 18, .int 65]
  fallback := some (.string "other")
  output := Accumulators.count

theorem always_read_byAge : Always (BucketStage.read (.object [("groupBy", .string "$age"),
    ("boundaries", .array [.number (.integer 0), .number (.integer 18), .number (.integer 65)]),
    ("default", .string "other")])) byAge := by
  have hage : Always (Expr.read (.string "$age")) (.field "age") :=
    Expr.always_read_text fun _ => rfl
  have hfew : ¬ (Value.ofJsonItems
    [.number (.integer 0), .number (.integer 18), .number (.integer 65)]).length < 2 := by decide
  exact always_read rfl rfl hfew (fun _ => rfl) (fun _ => rfl) (fun _ => rfl) hage (fun _ => rfl)

theorem gathers_of_read_byAge :
    ((BucketStage.read (.object [("groupBy", .string "$age"),
        ("boundaries", .array [.number (.integer 0), .number (.integer 18),
          .number (.integer 65)]),
        ("default", .string "other")]) : CachedReading BucketStage).run.run .empty).1 = .ok byAge ∧
    idField ∉ byAge.output.map (·.1) ∧ (∀ b ∈ byAge.boundaries, b.Precise) ∧
    (∀ d ∈ byAge.evaluated [aged 30, aged 70, aged 18], (byAge.keyOf d).Precise) ∧
    byAge.Splits ∧ byAge.Gathers 0 [aged 30, aged 70, aged 18] := by
  have hread : ((BucketStage.read (.object [("groupBy", .string "$age"),
      ("boundaries", .array [.number (.integer 0), .number (.integer 18), .number (.integer 65)]),
      ("default", .string "other")]) : CachedReading BucketStage).run.run .empty).1 =
        .ok byAge := congrArg Prod.fst (always_read_byAge .empty)
  have hid : idField ∉ byAge.output.map (·.1) := by decide
  have hprecise : ∀ b ∈ byAge.boundaries, b.Precise := by
    simp only [byAge, List.forall_mem_cons, Value.Precise]
    exact ⟨by decide, by decide, by decide, List.forall_mem_nil _⟩
  have hkeys : ∀ d ∈ byAge.evaluated [aged 30, aged 70, aged 18], (byAge.keyOf d).Precise := by
    have haged (n : Int64) (hn : n.toInt.natAbs ≤ 2 ^ 53) : (byAge.keyOf (aged n)).Precise := by
      have hkey : byAge.keyOf (aged n) = .int n := rfl
      rw [hkey]
      exact hn
    have hall : ∀ d ∈ [aged 30, aged 70, aged 18], (byAge.keyOf d).Precise := by
      simp only [List.forall_mem_cons]
      exact ⟨haged 30 (by decide), haged 70 (by decide), haged 18 (by decide),
        List.forall_mem_nil _⟩
    exact fun d hd => hall d (List.mem_filter.1 hd).1
  exact ⟨hread, hid, hprecise, hkeys, gathers_of_read hread hid hprecise hkeys⟩

end BucketStage

end DocStore
