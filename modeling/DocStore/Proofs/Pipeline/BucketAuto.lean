import DocStore.Proofs.Expr.Reading
import DocStore.Proofs.Pipeline.Cut
import DocStore.Proofs.Pipeline.Keyed
import DocStore.Proofs.Value.Comparable

/-!
# Runs of about the same size

`$bucketAuto` sorts the documents that it evaluates by their group values and cuts the list into
runs. No run is empty, equal group values stay in one run, and each row names the least group value
of its run with that of the next one: `BucketAutoStage.divides_of_run`.
-/

set_option autoImplicit false

namespace DocStore

namespace BucketAutoStage

variable {α β : Type}

/-! ## Ranges -/

/-- The range of group values that the id of a row names. -/
structure KeyRange where
  min : Value
  max : Value

/-- The id of the row of a range. -/
def KeyRange.toValue (r : KeyRange) : Value := .object [("min", r.min), ("max", r.max)]

/-- The ranges of runs: from the least key of a run to that of the next one, or to the greatest. -/
def ranges : List (List (Value × α)) → List KeyRange
  | [] => []
  | run :: rest =>
    { min := (run.head?.map (·.1)).getD .null
      max := ((rest.head?.bind (·.head?)).map (·.1)).getD
        ((run.getLast?.map (·.1)).getD .null) } :: ranges rest

theorem rows_eq (accs : Accumulators) (runs : List (List (Value × Inputs))) :
    rows accs runs =
      (runs.zip (ranges runs)).map fun e => accs.row e.2.toValue (e.1.map (·.2)) := by
  induction runs with
  | nil => rfl
  | cons run rest ih =>
      rw [rows, ih]
      rfl

theorem length_ranges (runs : List (List (Value × α))) : (ranges runs).length = runs.length := by
  induction runs with
  | nil => rfl
  | cons run rest ih => exact congrArg Nat.succ ih

section Ranges

variable {runs : List (List (Value × α))} (hne : ∀ run ∈ runs, run ≠ [])
include hne

/-- A range starts at the first key of its run. -/
theorem forall₂_ranges : List.Forall₂ (fun run range => ∃ e, run.head? = some e ∧ e.1 = range.min)
    runs (ranges runs) := by
  induction runs with
  | nil => exact .nil
  | cons run rest ih =>
      obtain ⟨hrun, hrest⟩ := List.forall_mem_cons.1 hne
      obtain ⟨e, run, rfl⟩ := List.exists_cons_of_ne_nil hrun
      exact .cons ⟨e, rfl, rfl⟩ (ih hrest)

theorem exists_mem_of_mem_ranges {r : KeyRange} (hr : r ∈ ranges runs) :
    ∃ run ∈ runs, ∃ e ∈ run, e.1 = r.min := by
  induction runs with
  | nil => cases hr
  | cons run rest ih =>
      obtain ⟨hrun, hrest⟩ := List.forall_mem_cons.1 hne
      rcases List.mem_cons.1 hr with rfl | hr
      · obtain ⟨e, run, rfl⟩ := List.exists_cons_of_ne_nil hrun
        exact ⟨_, List.mem_cons_self, e, List.mem_cons_self, rfl⟩
      · obtain ⟨later, hlater, e, he, hmin⟩ := ih hrest hr
        exact ⟨later, List.mem_cons_of_mem run hlater, e, he, hmin⟩

/-- The least keys of runs that are separate are in ascending order. -/
theorem increasing_ranges
    (hsep : runs.Pairwise fun run later => ∀ a ∈ run, ∀ b ∈ later, compareFirst a b = .lt) :
    (ranges runs).Pairwise fun r later => Value.compare r.min later.min = .lt := by
  induction runs with
  | nil => exact .nil
  | cons run rest ih =>
      obtain ⟨hrun, hrest⟩ := List.forall_mem_cons.1 hne
      obtain ⟨hhead, htail⟩ := List.pairwise_cons.1 hsep
      obtain ⟨e, run, rfl⟩ := List.exists_cons_of_ne_nil hrun
      refine List.pairwise_cons.2 ⟨fun r hr => ?_, ih hrest htail⟩
      obtain ⟨later, hlater, f, hf, hmin⟩ := exists_mem_of_mem_ranges hrest hr
      rw [← hmin]
      exact hhead later hlater e List.mem_cons_self f hf

/-- **A range ends where the next one starts.** -/
theorem chained_ranges : (ranges runs).IsChain fun r next => r.max = next.min := by
  induction runs with
  | nil => exact .nil
  | cons run rest ih =>
      obtain ⟨-, hrest⟩ := List.forall_mem_cons.1 hne
      cases rest with
      | nil => exact .singleton _
      | cons next rest =>
          obtain ⟨e, next, rfl⟩ := List.exists_cons_of_ne_nil (hrest next List.mem_cons_self)
          exact .cons_cons rfl (ih hrest)

/-- The last range ends at the last key of all. -/
theorem getLast?_ranges {r : KeyRange} (hr : r ∈ (ranges runs).getLast?) :
    ∃ e, runs.flatten.getLast? = some e ∧ e.1 = r.max := by
  induction runs with
  | nil => cases hr
  | cons run rest ih =>
      obtain ⟨hrun, hrest⟩ := List.forall_mem_cons.1 hne
      cases rest with
      | nil =>
          have hlast := List.getLast?_eq_some_getLast hrun
          rw [ranges, ranges, List.getLast?_singleton, Option.mem_some_iff] at hr
          subst hr
          refine ⟨run.getLast hrun, ?_, ?_⟩
          · rw [List.flatten_cons, List.flatten_nil, List.append_nil, hlast]
          · simp [hlast]
      | cons next rest =>
          have hlater : r ∈ (ranges (next :: rest)).getLast? := by
            rwa [ranges, ranges, List.getLast?_cons_cons, ← ranges] at hr
          obtain ⟨e, he, hmax⟩ := ih hrest hlater
          refine ⟨e, ?_, hmax⟩
          rw [List.flatten_cons, List.getLast?_append, he]
          rfl

end Ranges

/-! ## Group values that have an order -/

/-- Beside an array or an object there is no other group value but null. -/
theorem eq_of_isContainer {keys : List Value} (h : unordered? keys = none) {a b : Value}
    (ha : a ∈ keys) (hb : b ∈ keys) (hcontainer : a.isContainer = true)
    (hrank : a.rank = b.rank) : a = b := by
  have hnull (v : Value) (hv : v.rank = a.rank) : v.isNull = false := by
    cases v with
    | null => cases a <;> cases hcontainer <;> cases hv
    | _ => rfl
  have hmem {v : Value} (hv : v ∈ keys) (hvrank : v.rank = a.rank) :
      v ∈ keys.filter fun k => !k.isNull := List.mem_filter.2 ⟨hv, by rw [hnull v hvrank]; rfl⟩
  have ha' := hmem ha rfl
  have hb' := hmem hb hrank.symm
  unfold unordered? at h
  cases hkeys : keys.filter fun k => !k.isNull with
  | nil =>
      rw [hkeys] at ha'
      cases ha'
  | cons first others =>
      rw [hkeys] at h ha' hb'
      have hall : ∀ k ∈ others, first.Comparable ∧ k.Comparable := by
        intro k hk
        have hfound := List.find?_eq_none.1 (Option.map_eq_none_iff.1 h) k hk
        rw [Bool.not_eq_true, Option.isNone_eq_false_iff] at hfound
        exact (Value.isSome_compareSameClass?.1 hfound).2
      cases others with
      | nil => rw [List.mem_singleton.1 ha', List.mem_singleton.1 hb']
      | cons k others =>
          have hscalar : a.isContainer = false := by
            rcases List.mem_cons.1 ha' with rfl | ha'
            · exact (hall k List.mem_cons_self).1.scalar
            · exact (hall a ha').2.scalar
          rw [hscalar] at hcontainer
          cases hcontainer

/-- **Group values that the stage accepts are preordered** if their integers are precise. -/
theorem preordered_of_unordered? {keys : List Value} (h : unordered? keys = none)
    (hprecise : ∀ k ∈ keys, k.Precise) : Sorting.Preordered Value.compare keys where
  swap a _ b _ := Value.compare_swap a b
  coherent a ha b hb c hc := by
    refine Value.coherent_of_ranked fun hab hbc => ?_
    cases hcontainer : a.isContainer with
    | true =>
        obtain rfl := eq_of_isContainer h ha hb hcontainer hab
        obtain rfl := eq_of_isContainer h ha hc hcontainer hbc
        have hself := Value.compare_self a
        rw [Value.compare_eq, Ordering.then_eq_eq] at hself
        rw [hself.2]
        exact Coherent.eq
    | false =>
        exact Value.coherent_compareRanked_of_precise hcontainer hab hbc
          (by simp [hprecise a ha, hprecise b hb, hprecise c hc])

/-! ## Documents in runs -/

variable (s : BucketAutoStage)

/-- The documents that the stage evaluates. -/
abbrev evaluated (docs : List Value) : List Value := GroupStage.evaluated s.groupBy s.output docs

/-- The group value of a document. -/
abbrev keyOf (doc : Value) : Value := GroupStage.keyOf s.groupBy doc

/-- The order of documents by their group values. -/
def compareKeys (a b : Value) : Ordering := Value.compare (s.keyOf a) (s.keyOf b)

/-- A group value of documents that is above none of theirs. -/
def Least (v : Value) (docs : List Value) : Prop :=
  (∃ d ∈ docs, s.keyOf d = v) ∧ ∀ d ∈ docs, Value.compare v (s.keyOf d) ≠ .gt

/-- A group value of documents that is below none of theirs. -/
def Greatest (v : Value) (docs : List Value) : Prop :=
  (∃ d ∈ docs, s.keyOf d = v) ∧ ∀ d ∈ docs, Value.compare (s.keyOf d) v ≠ .gt

/-- What the rows of the stage say about documents: they are divided into runs, and each row names
the range of its run and accumulates its documents. -/
structure Divides (docs rows : List Value) (runs : List (List Value)) (ranges : List KeyRange) :
    Prop where
  /-- One after the other, the runs are the evaluated documents in the order of their keys. -/
  sorted : Sorting.Stable s.compareKeys (s.evaluated docs) runs.flatten
  nonempty : ∀ run ∈ runs, run ≠ []
  length_le : rows.length ≤ min s.buckets (s.evaluated docs).length
  /-- Documents of different runs have different group values. -/
  separate : runs.Pairwise fun run later => ∀ a ∈ run, ∀ b ∈ later, s.compareKeys a b = .lt
  /-- Where all group values differ, there are as many rows as can be, of runs of about one size. -/
  even : (s.evaluated docs).Pairwise (fun a b => s.compareKeys a b ≠ .eq) →
    rows.length = min s.buckets (s.evaluated docs).length ∧
      (runs.map List.length).Pairwise fun m n => n ≤ m ∧ m ≤ n + 1
  least : List.Forall₂ (fun run range => s.Least range.min run) runs ranges
  increasing : ranges.Pairwise fun range later => Value.compare range.min later.min = .lt
  chained : ranges.IsChain fun range next => range.max = next.min
  greatest : ∀ range ∈ ranges.getLast?, s.Greatest range.max (s.evaluated docs)
  rows_eq : rows = (runs.zip ranges).map fun e =>
    s.output.row e.2.toValue (e.1.map (GroupStage.inputsOf s.output))
  ids : rows.map (·.get? idField) = ranges.map fun range => some range.toValue

variable {s}

/-- The key and the inputs of a document. -/
def entry (s : BucketAutoStage) (doc : Value) : Value × Inputs :=
  (s.keyOf doc, GroupStage.inputsOf s.output doc)

theorem compareFirst_entry (a b : Value) :
    compareFirst (s.entry a) (s.entry b) = s.compareKeys a b := rfl

/-- The sizes that the runs of documents are to have. -/
def wanted (s : BucketAutoStage) (docs : List Value) : List Nat :=
  sizes (min s.buckets (s.evaluated docs).length) (s.evaluated docs).length

theorem sum_wanted (hbuckets : 0 < s.buckets) (docs : List Value) :
    (s.wanted docs).sum = (s.evaluated docs).length := by
  rw [wanted]
  cases (s.evaluated docs).length with
  | zero => rw [Nat.min_zero, sizes, List.range_zero, List.map_nil, List.sum_nil]
  | succ n => exact sum_sizes (by omega) _

/-- Documents in any order are cut as wanted. -/
theorem cuts_wanted (hbuckets : 0 < s.buckets) {docs l : List Value}
    (hl : l.length = (s.evaluated docs).length) :
    Cuts (s.wanted docs) (l.map s.entry) (cut (s.wanted docs) (l.map s.entry)) := by
  cases l with
  | nil =>
      rw [List.map_nil, cut]
      exact .nil _
  | cons d rest =>
      refine cuts_cut _ (fun hnil => ?_) (sizes_pos (Nat.min_le_right _ _))
      have hlength := congrArg List.length hnil
      rw [wanted, length_sizes, ← hl, List.length_cons, List.length_nil] at hlength
      omega

/-- What a run that does not end in an error gives. -/
theorem rows_of_run {index : Nat} {docs out : List Value}
    (h : (s.run index docs).result = .ok out) :
    unordered? ((s.evaluated docs).map s.keyOf) = none ∧
      out = rows s.output (cut (s.wanted docs)
        ((Sorting.sortBy s.compareKeys (s.evaluated docs)).map s.entry)) := by
  obtain ⟨keyed, hkeyed, h⟩ := Run.result_bind_eq_ok.1 h
  rw [GroupStage.result_keepAll_keyed] at hkeyed
  obtain rfl : (s.evaluated docs).map s.entry = keyed := by
    cases hkeyed
    rfl
  have hkeys : ((s.evaluated docs).map s.entry).map (·.1) = (s.evaluated docs).map s.keyOf := by
    rw [List.map_map]
    rfl
  have hsorted : Sorting.sortBy compareFirst ((s.evaluated docs).map s.entry) =
      (Sorting.sortBy s.compareKeys (s.evaluated docs)).map s.entry :=
    Sorting.sortBy_map s.entry (s.evaluated docs)
  have hlength := (Sorting.perm_sortBy s.compareKeys (s.evaluated docs)).length_eq
  rw [wanted, ← hlength, ← List.length_map s.entry, ← hsorted, ← hkeys]
  dsimp only at h
  split at h
  · rename_i hempty
    cases h
    rw [List.isEmpty_iff.1 hempty]
    exact ⟨rfl, by rw [Sorting.sortBy]; simp [cut, rows]⟩
  · split at h
    · cases h
    · rename_i hnone
      refine ⟨hnone, ?_⟩
      obtain ⟨-, -, h⟩ := Run.result_bind_eq_ok.1 h
      cases h
      rfl

/-- A list that is a flattened one, mapped, comes from such a list. -/
theorem exists_of_flatten_eq_map {f : β → α} {l : List β} {parts : List (List α)}
    (h : parts.flatten = l.map f) :
    ∃ runs : List (List β), runs.flatten = l ∧ runs.map (List.map f) = parts := by
  induction parts generalizing l with
  | nil =>
      refine ⟨[], ?_, rfl⟩
      rw [List.flatten_nil] at h
      exact (List.map_eq_nil_iff.1 h.symm).symm
  | cons part rest ih =>
      rw [List.flatten_cons] at h
      obtain ⟨run, later, rfl, rfl, hlater⟩ := List.append_eq_map_iff.1 h
      obtain ⟨runs, rfl, rfl⟩ := ih hlater.symm
      exact ⟨run :: runs, rfl, rfl⟩

section Divides

variable {docs : List Value} {runs : List (List Value)}

/-- The runs of documents as runs of entries. -/
def entries (s : BucketAutoStage) (runs : List (List Value)) : List (List (Value × Inputs)) :=
  runs.map (List.map s.entry)

theorem separate_iff : ((s.entries runs).Pairwise fun run later =>
    ∀ a ∈ run, ∀ b ∈ later, compareFirst a b = .lt) ↔
      runs.Pairwise fun run later => ∀ a ∈ run, ∀ b ∈ later, s.compareKeys a b = .lt := by
  rw [entries, List.pairwise_map]
  simp only [List.forall_mem_map, compareFirst_entry]

/-- The keys of documents that are cut are separate. -/
theorem separate_of_cuts {sizes : List Nat}
    (horder : Sorting.Preordered s.compareKeys (s.evaluated docs))
    (hsorted : Sorting.Stable s.compareKeys (s.evaluated docs) runs.flatten)
    (hcuts : Cuts sizes (runs.flatten.map s.entry) (s.entries runs)) :
    runs.Pairwise fun run later => ∀ a ∈ run, ∀ b ∈ later, s.compareKeys a b = .lt := by
  have hflat : Sorting.Preordered s.compareKeys runs.flatten :=
    horder.mono hsorted.perm.subset
  have hentries : Sorting.Preordered compareFirst (runs.flatten.map s.entry) := by
    refine ⟨List.forall_mem_map.2 fun a ha => List.forall_mem_map.2 fun b hb => ?_, ?_⟩
    · exact hflat.swap a ha b hb
    · refine List.forall_mem_map.2 fun a ha => List.forall_mem_map.2 fun b hb => ?_
      exact List.forall_mem_map.2 fun c hc => hflat.coherent a ha b hb c hc
  have hascending : Sorting.Ascending compareFirst (runs.flatten.map s.entry) :=
    List.pairwise_map.2 hsorted.ascending
  exact separate_iff.1 (hcuts.separate hentries (List.Subset.refl _) hascending)

/-- Where all group values differ, the sizes of the runs are those that are wanted. -/
theorem map_length_of_cuts (hbuckets : 0 < s.buckets)
    (hsorted : Sorting.Stable s.compareKeys (s.evaluated docs) runs.flatten)
    (hcuts : Cuts (s.wanted docs) (runs.flatten.map s.entry) (s.entries runs))
    (hdiffer : (s.evaluated docs).Pairwise fun a b => s.compareKeys a b ≠ .eq) :
    runs.map List.length = s.wanted docs := by
  have hsymm {a b : Value} (h : s.compareKeys a b ≠ .eq) : s.compareKeys b a ≠ .eq := by
    rw [compareKeys, ← Value.compare_swap]
    intro heq
    exact h (Ordering.swap_eq_eq.1 heq)
  have hdifferSorted : (runs.flatten.map s.entry).Pairwise fun a b => compareFirst b a ≠ .eq :=
    List.pairwise_map.2 (((hsorted.perm.pairwise_iff hsymm).2 hdiffer).imp hsymm)
  have hlengths : (s.entries runs).map List.length = runs.map List.length := by
    rw [entries, List.map_map]
    exact List.map_congr_left fun run _ => List.length_map _
  rw [← hlengths]
  refine hcuts.map_length ?_ (sizes_pos (Nat.min_le_right _ _)) hdifferSorted
  rw [List.length_map, hsorted.perm.length_eq]
  exact sum_wanted hbuckets docs

/-- The first document of a run that is sorted has its least group value. -/
theorem forall₂_least (hne : ∀ run ∈ s.entries runs, run ≠ [])
    (hascending : Sorting.Ascending s.compareKeys runs.flatten) :
    List.Forall₂ (fun run range => s.Least range.min run) runs (ranges (s.entries runs)) := by
  have hruns : ∀ run ∈ runs, Sorting.Ascending s.compareKeys run :=
    (List.pairwise_flatten.1 hascending).1
  have hstart := List.forall₂_map_left_iff.1 (forall₂_ranges hne)
  refine (List.forall₂_and_left _ _ |>.2 ⟨hruns, hstart⟩).imp ?_
  rintro run range ⟨hrun, e, hhead, hmin⟩
  cases run with
  | nil => cases hhead
  | cons d rest =>
      cases hhead
      refine ⟨⟨d, List.mem_cons_self, hmin⟩, ?_⟩
      rw [← hmin]
      refine List.forall_mem_cons.2 ⟨?_, (List.pairwise_cons.1 hrun).1⟩
      rw [show (s.entry d).1 = s.keyOf d from rfl, Value.compare_self]
      decide

/-- The last range ends at the group value of the last document. -/
theorem exists_getLast?_of_ranges (hne : ∀ run ∈ s.entries runs, run ≠ []) {range : KeyRange}
    (hrange : range ∈ (ranges (s.entries runs)).getLast?) :
    ∃ d, runs.flatten.getLast? = some d ∧ s.keyOf d = range.max := by
  obtain ⟨e, he, hmax⟩ := getLast?_ranges hne hrange
  have hflatten : (s.entries runs).flatten = runs.flatten.map s.entry := List.map_flatten.symm
  rw [hflatten, List.getLast?_map, Option.map_eq_some_iff] at he
  obtain ⟨d, hd, rfl⟩ := he
  exact ⟨d, hd, hmax⟩

/-- The rows of runs of documents, each with its range. -/
theorem rows_entries (runs : List (List Value)) : rows s.output (s.entries runs) =
    (runs.zip (ranges (s.entries runs))).map fun e =>
      s.output.row e.2.toValue (e.1.map (GroupStage.inputsOf s.output)) := by
  rw [BucketAutoStage.rows_eq]
  conv_lhs => rw [entries, List.zip_map_left, List.map_map]
  refine List.map_congr_left fun e _ => ?_
  simp [Function.comp_def, entry]

/-- The last range ends at the greatest group value of all. -/
theorem greatest_of_getLast? (hne : ∀ run ∈ s.entries runs, run ≠ [])
    (hsorted : Sorting.Stable s.compareKeys (s.evaluated docs) runs.flatten) {range : KeyRange}
    (hrange : range ∈ (ranges (s.entries runs)).getLast?) :
    s.Greatest range.max (s.evaluated docs) := by
  obtain ⟨d, hd, hmax⟩ := exists_getLast?_of_ranges hne hrange
  have hlast := Sorting.Ascending.ne_gt_getLast? hsorted.ascending
    (fun a => Value.compare_self (s.keyOf a)) hd
  refine ⟨⟨d, hsorted.perm.subset (List.mem_of_getLast? hd), hmax⟩, fun a ha => ?_⟩
  rw [← hmax]
  exact hlast a (hsorted.perm.mem_iff.2 ha)

/-- Documents in runs whose entries are cut. -/
theorem divides_of_cuts (hid : idField ∉ s.output.map (·.1)) (hbuckets : 0 < s.buckets)
    (horder : Sorting.Preordered s.compareKeys (s.evaluated docs))
    (hsorted : Sorting.Stable s.compareKeys (s.evaluated docs) runs.flatten)
    (hcuts : Cuts (s.wanted docs) (runs.flatten.map s.entry) (s.entries runs)) :
    s.Divides docs (rows s.output (s.entries runs)) runs (ranges (s.entries runs)) := by
  have hne := hcuts.ne_nil
  have hseparate := separate_of_cuts horder hsorted hcuts
  have hrows := s.rows_entries runs
  have hcount : (ranges (s.entries runs)).length = runs.length := by
    rw [length_ranges, entries, List.length_map]
  have hlength : (rows s.output (s.entries runs)).length = runs.length := by
    rw [hrows, List.length_map, List.length_zip, hcount, Nat.min_self]
  exact {
    sorted := hsorted
    nonempty := fun run hrun hnil => hne _ (List.mem_map_of_mem hrun) (by rw [hnil]; rfl)
    length_le := by
      have hle := hcuts.length_le
      rwa [entries, List.length_map, ← hlength, wanted, length_sizes] at hle
    separate := hseparate
    even := by
      intro hdiffer
      have hlengths := map_length_of_cuts hbuckets hsorted hcuts hdiffer
      rw [hlengths]
      refine ⟨?_, sizes_even _ _⟩
      rw [hlength, ← List.length_map List.length, hlengths, wanted, length_sizes]
    least := forall₂_least hne hsorted.ascending
    increasing := increasing_ranges hne (separate_iff.2 hseparate)
    chained := chained_ranges hne
    greatest := fun range hrange => greatest_of_getLast? hne hsorted hrange
    rows_eq := hrows
    ids := by
      rw [hrows, List.map_map]
      conv_rhs => rw [← List.map_snd_zip hcount.le, List.map_map]
      exact List.map_congr_left fun e _ => Accumulators.get?_row hid _ _ }

end Divides

/-! ## Reading -/

theorem gives_read (j : Json) : Gives (BucketAutoStage.read j) fun s => 0 < s.buckets := by
  cases j with
  | object fields =>
      refine gives_bind (gives_any _) fun _ _ => gives_bind (gives_any _) fun groupBy _ => ?_
      refine gives_bind (P := fun n => 0 < n) (gives_require (fun n hn => ?_) _) fun n hn => ?_
      · simpa using (Option.filter_eq_some_iff.1 hn).2
      · refine gives_bind (gives_any _) fun groupBy _ => gives_bind (gives_any _) fun output _ => ?_
        exact gives_pure hn
  | _ => exact gives_fail _

/-- **Buckets of about the same size.** Whatever `$bucketAuto` stage is read that leaves the id to
the rows, and whatever documents it is run on: if the run does not end in an error and all integers
among the group values are precise, the rows divide the evaluated documents. -/
theorem divides_of_run {j : Json} {cache : PatternCache}
    (hread : ((BucketAutoStage.read j : CachedReading BucketAutoStage).run.run cache).1 = .ok s)
    (hid : idField ∉ s.output.map (·.1)) {index : Nat} {docs out : List Value}
    (hrun : (s.run index docs).result = .ok out)
    (hprecise : ∀ d ∈ s.evaluated docs, (s.keyOf d).Precise) :
    ∃ runs ranges, s.Divides docs out runs ranges := by
  obtain ⟨hordered, rfl⟩ := rows_of_run hrun
  have hkeys := preordered_of_unordered? hordered (List.forall_mem_map.2 hprecise)
  have horder : Sorting.Preordered s.compareKeys (s.evaluated docs) := hkeys.of_map
  have hstable := Sorting.stable_sortBy horder
  have hcuts := cuts_wanted (gives_read j cache s hread) hstable.perm.length_eq
  -- Entries are cut, and the runs of documents are those that the runs of entries come from.
  obtain ⟨runs, hflatten, hruns⟩ := exists_of_flatten_eq_map hcuts.flatten_eq
  rw [← hruns] at hcuts ⊢
  rw [← hflatten] at hstable hcuts
  exact ⟨runs, _, divides_of_cuts hid (gives_read j cache s hread) horder hstable hcuts⟩

/-- A product with a price. -/
def priced (n : Int64) : Value := .object [("price", .int n)]

/-- Products, two of them with one price. -/
def products : List Value := [priced 3, priced 2, priced 1, priced 2]

/-- The stage that divides products into two buckets by their prices. -/
def byPrice : BucketAutoStage :=
  { groupBy := .field "price", buckets := 2, output := Accumulators.count }

/-- The rows of the products: the second of price 2 makes the first bucket larger than wanted. -/
def priceRows : List Value :=
  [.object [("_id", .object [("min", .int 1), ("max", .int 3)]), ("count", .int 3)],
    .object [("_id", .object [("min", .int 3), ("max", .int 3)]), ("count", .int 1)]]

theorem result_run_byPrice : (byPrice.run 0 products).result = .ok priceRows := rfl

theorem always_read_price {count : Json} {n : Nat}
    (h : count.toUInt64?.filter (0 < ·) = some n) :
    Always (BucketAutoStage.read (.object [("groupBy", .string "$price"), ("buckets", count)]))
      { groupBy := .field "price", buckets := n, output := Accumulators.count } := by
  have hprice : Always (Expr.read (.string "$price")) (.field "price") :=
    Expr.always_read_text fun _ => rfl
  exact Always.bind (a := ()) (fun _ => rfl) ((always_require rfl _).bind
    ((always_require h _).bind (hprice.bind (always_pure _))))

theorem divides_of_run_byPrice :
    ((BucketAutoStage.read (.object [("groupBy", .string "$price"),
        ("buckets", .number (.integer 2))]) : CachedReading BucketAutoStage).run.run .empty).1 =
      .ok byPrice ∧
    idField ∉ byPrice.output.map (·.1) ∧
    (byPrice.run 0 products).result = .ok priceRows ∧
    (∀ d ∈ byPrice.evaluated products, (byPrice.keyOf d).Precise) ∧
    ∃ runs ranges, byPrice.Divides products priceRows runs ranges := by
  have hread : ((BucketAutoStage.read (.object [("groupBy", .string "$price"),
      ("buckets", .number (.integer 2))]) : CachedReading BucketAutoStage).run.run .empty).1 =
        .ok byPrice := congrArg Prod.fst (always_read_price rfl .empty)
  have hid : idField ∉ byPrice.output.map (·.1) := by decide
  have hprecise : ∀ d ∈ byPrice.evaluated products, (byPrice.keyOf d).Precise := by
    have hpriced (n : Int64) (hn : n.toInt.natAbs ≤ 2 ^ 53) :
        (byPrice.keyOf (priced n)).Precise := by
      have hkey : byPrice.keyOf (priced n) = .int n := rfl
      rw [hkey]
      exact hn
    have hall : ∀ d ∈ products, (byPrice.keyOf d).Precise := by
      simp only [products, List.forall_mem_cons]
      exact ⟨hpriced 3 (by decide), hpriced 2 (by decide), hpriced 1 (by decide),
        hpriced 2 (by decide), List.forall_mem_nil _⟩
    exact fun d hd => hall d (List.mem_filter.1 hd).1
  exact ⟨hread, hid, result_run_byPrice, hprecise,
    divides_of_run hread hid result_run_byPrice hprecise⟩

end BucketAutoStage

end DocStore
