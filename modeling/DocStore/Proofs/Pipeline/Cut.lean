import DocStore.Pipeline.Bucket
import DocStore.Proofs.Query.Sorting

/-!
# Cutting a sorted list

`BucketAutoStage.cut` takes a list apart into runs that are about as long as wanted: none is empty,
equal keys stay in one run (`Cuts.separate`), and where all keys differ the runs have the wanted
sizes (`Cuts.map_length`).
-/

set_option autoImplicit false

namespace DocStore

namespace BucketAutoStage

variable {α : Type}

/-! ## Cutting -/

/-- How a list is cut: each run has as many entries as wanted and those after them that compare
equal to the last of these. -/
inductive Cuts : List Nat → List (Value × α) → List (List (Value × α)) → Prop
  | nil (sizes : List Nat) : Cuts sizes [] []
  | last (size : Nat) {l : List (Value × α)} (hl : l ≠ []) : Cuts [size] l [l]
  | cons {size : Nat} {sizes : List Nat} {l same rest : List (Value × α)} {last : Value × α}
      {runs : List (List (Value × α))} (hlast : (l.take size).getLast? = some last)
      (hsplit : l.drop size = same ++ rest) (hsame : ∀ e ∈ same, Value.compare e.1 last.1 = .eq)
      (hrest : ∀ e ∈ rest.head?, Value.compare e.1 last.1 ≠ .eq) (tail : Cuts sizes rest runs) :
      Cuts (size :: sizes) l ((l.take size ++ same) :: runs)

/-- One run that is not the last one. -/
theorem cut_eq_cons {size next : Nat} {sizes : List Nat} {l : List (Value × α)} {last : Value × α}
    (hl : l ≠ []) (hlast : (l.take size).getLast? = some last) :
    cut (size :: next :: sizes) l =
      (l.take size ++ (l.drop size).takeWhile fun e => (Value.compare e.1 last.1).isEq) ::
        cut (next :: sizes) ((l.drop size).dropWhile fun e => (Value.compare e.1 last.1).isEq) := by
  rw [cut, hlast]
  · exact List.cons_ne_nil next sizes
  · exact hl

theorem cuts_cut {sizes : List Nat} (l : List (Value × α)) (hne : sizes ≠ [])
    (hpos : ∀ size ∈ sizes, 0 < size) : Cuts sizes l (cut sizes l) := by
  induction sizes generalizing l with
  | nil => exact absurd rfl hne
  | cons size sizes ih =>
      obtain ⟨hsize, hsizes⟩ := List.forall_mem_cons.1 hpos
      by_cases hl : l = []
      · rw [hl, cut]
        exact .nil _
      · cases sizes with
        | nil =>
            rw [cut]
            · exact .last size hl
            · exact hl
        | cons next sizes =>
            -- A run that is wanted has a last entry.
            have hwanted : l.take size ≠ [] := by
              rw [ne_eq, List.take_eq_nil_iff]
              exact not_or.2 ⟨hsize.ne', hl⟩
            have hlast := List.getLast?_eq_some_getLast hwanted
            rw [cut_eq_cons hl hlast]
            refine .cons hlast List.takeWhile_append_dropWhile.symm (fun e he => ?_)
              (fun e he => ?_) (ih _ (List.cons_ne_nil next sizes) hsizes)
            · simpa using List.mem_takeWhile_imp he
            · have hstop := List.head?_dropWhile_not
                (fun e : Value × α => (Value.compare e.1 ((l.take size).getLast hwanted).1).isEq)
                (l.drop size)
              rw [Option.mem_def.1 he] at hstop
              simpa using hstop

section Cuts

variable {sizes : List Nat} {l : List (Value × α)} {runs : List (List (Value × α))}

theorem Cuts.flatten_eq (h : Cuts sizes l runs) : runs.flatten = l := by
  induction h with
  | nil sizes => rfl
  | last size hl => simp
  | @cons size sizes l same rest last runs hlast hsplit hsame hrest tail ih =>
      rw [List.flatten_cons, ih, List.append_assoc, ← hsplit, List.take_append_drop]

theorem Cuts.ne_nil (h : Cuts sizes l runs) : ∀ run ∈ runs, run ≠ [] := by
  induction h with
  | nil sizes => exact List.forall_mem_nil _
  | last size hl => exact List.forall_mem_singleton.2 hl
  | @cons size sizes l same rest last runs hlast hsplit hsame hrest tail ih =>
      refine List.forall_mem_cons.2 ⟨fun hnil => ?_, ih⟩
      rw [(List.append_eq_nil_iff.1 hnil).1] at hlast
      cases hlast

theorem Cuts.length_le (h : Cuts sizes l runs) : runs.length ≤ sizes.length := by
  induction h with
  | nil sizes => exact Nat.zero_le _
  | last size hl => exact Nat.le_refl 1
  | cons hlast hsplit hsame hrest tail ih => exact Nat.succ_le_succ ih

/-- The order of entries by their keys. -/
def compareFirst (e f : Value × α) : Ordering := Value.compare e.1 f.1

/-- **A cut of a list in ascending order separates its keys**: all that is in one run is below all
that is in the later ones. -/
theorem Cuts.separate (h : Cuts sizes l runs) {entries : List (Value × α)}
    (horder : Sorting.Preordered compareFirst entries) (hsub : l ⊆ entries)
    (hasc : Sorting.Ascending compareFirst l) :
    runs.Pairwise fun run later => ∀ a ∈ run, ∀ b ∈ later, compareFirst a b = .lt := by
  induction h with
  | nil sizes => exact List.Pairwise.nil
  | last size hl => exact List.pairwise_singleton _ _
  | @cons size sizes l same rest last runs hlast hsplit hsame hrest tail ih =>
      have hl : l.take size ++ (same ++ rest) = l := by rw [← hsplit, List.take_append_drop]
      rw [← hl] at hasc hsub
      obtain ⟨htakenSub, hothersSub⟩ := List.append_subset.1 hsub
      obtain ⟨hsameSub, hrestSub⟩ := List.append_subset.1 hothersSub
      obtain ⟨htaken, hothers, hcross⟩ := List.pairwise_append.1 hasc
      have hrestAsc := (List.pairwise_append.1 hothers).2.1
      have hlastMem : last ∈ l.take size := List.mem_of_getLast? hlast
      have hlastEntry := htakenSub hlastMem
      -- The run ends before the first key that is not that of its last wanted entry.
      have hbelow : ∀ b ∈ rest, compareFirst last b = .lt := by
        refine Sorting.Ascending.lt_of_head? hrestAsc horder hrestSub hlastEntry fun d hd => ?_
        have hdMem : d ∈ rest := List.mem_of_mem_head? hd
        have hle := hcross last hlastMem d (List.mem_append_right same hdMem)
        have hne : compareFirst last d ≠ .eq := fun heq =>
          hrest d hd ((horder.eq_comm hlastEntry (hrestSub hdMem)).1 heq)
        cases hcompare : compareFirst last d <;> simp_all
      have hupTo : ∀ a ∈ l.take size ++ same, compareFirst a last ≠ .gt := by
        refine List.forall_mem_append.2 ⟨?_, fun a ha => ?_⟩
        · exact Sorting.Ascending.ne_gt_getLast? htaken (fun e => Value.compare_self e.1) hlast
        · rw [compareFirst, hsame a ha]
          decide
      refine List.pairwise_cons.2 ⟨fun later hlater a ha b hb => ?_, ih hrestSub hrestAsc⟩
      have hbRest : b ∈ rest := by
        rw [← tail.flatten_eq]
        exact List.mem_flatten.2 ⟨later, hlater, hb⟩
      have haEntry := List.append_subset.2 ⟨htakenSub, hsameSub⟩ ha
      exact (horder.coherent a haEntry last hlastEntry b (hrestSub hbRest)).lt_of_ne_gt_of_lt
        (hupTo a ha) (hbelow b hbRest)

/-- Where all keys differ, the runs have the wanted sizes. -/
theorem Cuts.map_length (h : Cuts sizes l runs) (hsum : sizes.sum = l.length)
    (hpos : ∀ size ∈ sizes, 0 < size) (hdiffer : l.Pairwise fun a b => compareFirst b a ≠ .eq) :
    runs.map List.length = sizes := by
  induction h with
  | nil sizes =>
      cases sizes with
      | nil => rfl
      | cons size sizes =>
          have hsize := hpos size List.mem_cons_self
          rw [List.sum_cons, List.length_nil] at hsum
          omega
  | last size hl =>
      rw [List.sum_singleton] at hsum
      rw [hsum]
      rfl
  | @cons size sizes l same rest last runs hlast hsplit hsame hrest tail ih =>
      have hl : l.take size ++ (same ++ rest) = l := by rw [← hsplit, List.take_append_drop]
      have hall := List.pairwise_append.1 (hl ▸ hdiffer)
      -- Nothing has the key of another entry.
      have hsameNil : same = [] := by
        refine List.eq_nil_iff_forall_not_mem.2 fun e he => ?_
        exact hall.2.2 last (List.mem_of_getLast? hlast) e (List.mem_append_left rest he)
          (hsame e he)
      subst hsameNil
      have hdrop : l.drop size = rest := hsplit
      rw [List.sum_cons] at hsum
      have hlength : (l.drop size).length = l.length - size := List.length_drop
      rw [hdrop] at hlength
      have htail := ih (by omega) (fun n hn => hpos n (List.mem_cons_of_mem size hn))
        (List.pairwise_append.1 hall.2.1).2.1
      rw [List.map_cons, htail, List.append_nil, List.length_take, Nat.min_eq_left (by omega)]

end Cuts

/-! ## Sizes -/

theorem length_sizes (buckets total : Nat) : (sizes buckets total).length = buckets := by
  rw [sizes, List.length_map, List.length_range]

theorem sum_range_extra (base extra n : Nat) :
    ((List.range n).map fun i => base + if i < extra then 1 else 0).sum =
      n * base + min extra n := by
  induction n with
  | zero => simp
  | succ n ih =>
      rw [List.range_succ, List.map_append, List.sum_append, ih, Nat.succ_mul]
      simp only [List.map_cons, List.map_nil, List.sum_cons, List.sum_nil]
      split <;> omega

/-- The sizes make up the whole. -/
theorem sum_sizes {buckets : Nat} (hpos : 0 < buckets) (total : Nat) :
    (sizes buckets total).sum = total := by
  have hrest : total % buckets < buckets := Nat.mod_lt total hpos
  rw [sizes, sum_range_extra, Nat.min_eq_left hrest.le]
  exact Nat.div_add_mod total buckets

theorem sizes_pos {buckets total : Nat} (h : buckets ≤ total) :
    ∀ size ∈ sizes buckets total, 0 < size := by
  intro size hsize
  obtain ⟨i, hi, rfl⟩ := List.mem_map.1 hsize
  have hpos : 0 < buckets := Nat.lt_of_le_of_lt (Nat.zero_le i) (List.mem_range.1 hi)
  exact Nat.add_pos_left (Nat.div_pos h hpos) _

/-- The greater sizes come first, and no size exceeds another by more than one. -/
theorem sizes_even (buckets total : Nat) :
    (sizes buckets total).Pairwise fun m n => n ≤ m ∧ m ≤ n + 1 := by
  refine List.pairwise_map.2 (List.pairwise_lt_range.imp fun hij => ?_)
  split <;> split <;> omega

end BucketAutoStage

end DocStore
