import Mathlib.Data.List.Induction
import DocStore.Proofs.Value.Order
import DocStore.Query.Sorting

/-!
# Stable sorting

Where the comparisons of the elements of a list are those of a preorder, sorting gives the elements
in ascending order, and leaves those that compare equal in the order that they had: `stable_sortBy`.
There is only one such list, so that filtering commutes with sorting: `filter_sortBy`. Keeping the
better of two elements from the left to the right leaves the earliest of the least elements,
`exists_best?`, and a list may be cut and the parts searched apart, `best?_append`. No more is asked
of the comparison, so it need not be transitive on other elements.
-/

set_option autoImplicit false

namespace DocStore

/-! ## Comparisons in turn -/

namespace Coherent

variable {o₁ o₂ o₃ : Ordering}

theorem lt_of_lt_of_ne_gt (h : Coherent o₁ o₂ o₃) (h₁ : o₁ = .lt) (h₂ : o₂ ≠ .gt) : o₃ = .lt := by
  by_cases heq : o₂ = .eq
  · rw [h.right heq]
    exact h₁
  · have hlt : o₂ = .lt := by cases o₂ <;> simp_all
    rw [h.same (h₁.trans hlt.symm)]
    exact h₁

theorem lt_of_ne_gt_of_lt (h : Coherent o₁ o₂ o₃) (h₁ : o₁ ≠ .gt) (h₂ : o₂ = .lt) : o₃ = .lt := by
  by_cases heq : o₁ = .eq
  · rw [h.left heq]
    exact h₂
  · have hlt : o₁ = .lt := by cases o₁ <;> simp_all
    rw [h.same (hlt.trans h₂.symm)]
    exact hlt

/-- Orders that are read backwards. -/
theorem reverse (h : Coherent o₁ o₂ o₃) : Coherent o₂ o₁ o₃ where
  left := h.right
  right := h.left
  same h₂₁ := (h.same h₂₁.symm).trans h₂₁.symm

end Coherent

namespace Sorting

variable {α β : Type} {compare : α → α → Ordering} {l : List α}

/-! ## Preorders on the elements of a list -/

/-- The comparisons of the elements of a list are those of a total preorder. -/
structure Preordered (compare : α → α → Ordering) (l : List α) : Prop where
  swap : ∀ a ∈ l, ∀ b ∈ l, (compare a b).swap = compare b a
  coherent : ∀ a ∈ l, ∀ b ∈ l, ∀ c ∈ l, Coherent (compare a b) (compare b c) (compare a c)

theorem Preordered.mono (h : Preordered compare l) {l' : List α} (hsub : l' ⊆ l) :
    Preordered compare l' where
  swap a ha b hb := h.swap a (hsub ha) b (hsub hb)
  coherent a ha b hb c hc := h.coherent a (hsub ha) b (hsub hb) c (hsub hc)

/-- Elements that are compared by keys are preordered if the keys are. -/
theorem Preordered.of_map {f : β → α} {l : List β} (h : Preordered compare (l.map f)) :
    Preordered (fun a b => compare (f a) (f b)) l where
  swap _ ha _ hb := h.swap _ (List.mem_map_of_mem ha) _ (List.mem_map_of_mem hb)
  coherent _ ha _ hb _ hc :=
    h.coherent _ (List.mem_map_of_mem ha) _ (List.mem_map_of_mem hb) _ (List.mem_map_of_mem hc)

section Pairs

variable (h : Preordered compare l) {a b : α} (ha : a ∈ l) (hb : b ∈ l)
include h ha hb

theorem Preordered.gt_iff : compare a b = .gt ↔ compare b a = .lt := by
  rw [← h.swap a ha b hb]
  cases compare a b <;> simp

theorem Preordered.eq_comm : compare a b = .eq ↔ compare b a = .eq := by
  rw [← h.swap a ha b hb]
  cases compare a b <;> simp

end Pairs

/-! ## Sorted lists -/

/-- A list in ascending order. -/
def Ascending (compare : α → α → Ordering) (l : List α) : Prop :=
  l.Pairwise fun a b => compare a b ≠ .gt

/-- The last element of an ascending list is the greatest. -/
theorem Ascending.ne_gt_getLast? (h : Ascending compare l) (hself : ∀ a, compare a a = .eq)
    {last : α} (hlast : l.getLast? = some last) : ∀ a ∈ l, compare a last ≠ .gt := by
  obtain ⟨before, rfl⟩ := List.getLast?_eq_some_iff.1 hlast
  intro a ha
  rcases List.mem_append.1 ha with ha | ha
  · exact (List.pairwise_append.1 h).2.2 a ha last (List.mem_singleton_self last)
  · rw [List.mem_singleton.1 ha, hself]
    decide

/-- What is below the first element of an ascending list is below all of them. -/
theorem Ascending.lt_of_head? (h : Ascending compare l) {all : List α}
    (horder : Preordered compare all) (hsub : l ⊆ all) {a : α} (ha : a ∈ all)
    (hfirst : ∀ b ∈ l.head?, compare a b = .lt) : ∀ b ∈ l, compare a b = .lt := by
  cases l with
  | nil => exact List.forall_mem_nil _
  | cons first rest =>
      obtain ⟨hfirstMem, hrest⟩ := List.cons_subset.1 hsub
      refine List.forall_mem_cons.2 ⟨hfirst first rfl, fun b hb => ?_⟩
      exact (horder.coherent a ha first hfirstMem b (hrest hb)).lt_of_lt_of_ne_gt (hfirst first rfl)
        ((List.pairwise_cons.1 h).1 b hb)

/-- Where each element is below the next one, it is below all that follow. -/
theorem pairwise_lt_of_isChain (h : Preordered compare l)
    (hchain : l.IsChain fun a b => compare a b = .lt) :
    l.Pairwise fun a b => compare a b = .lt := by
  induction l with
  | nil => exact .nil
  | cons a rest ih =>
      have hrest := ih (h.mono (List.subset_cons_self a rest)) hchain.tail
      refine List.pairwise_cons.2 ⟨fun c hc => ?_, hrest⟩
      cases rest with
      | nil => cases hc
      | cons b rest =>
          have hab : compare a b = .lt := (List.isChain_cons_cons.1 hchain).1
          rcases List.mem_cons.1 hc with rfl | hc'
          · exact hab
          · have hbc : compare b c = .lt := (List.pairwise_cons.1 hrest).1 c hc'
            exact (h.coherent a List.mem_cons_self b (List.mem_cons_of_mem a List.mem_cons_self) c
              (List.mem_cons_of_mem a hc)).same (hab.trans hbc.symm) ▸ hab

/-- A list with the elements of another one in ascending order, in which those that compare equal
are in the order of the other one. -/
structure Stable (compare : α → α → Ordering) (l sorted : List α) : Prop where
  perm : sorted.Perm l
  ascending : Ascending compare sorted
  stable : ∀ a ∈ l, sorted.filter (fun b => (compare b a).isEq) =
    l.filter fun b => (compare b a).isEq

theorem place_subset {x : α} {before : List α} (hx : x ∈ l) (hbefore : before ⊆ l) :
    place compare x before ⊆ l := by
  intro b hb
  rcases List.mem_cons.1 ((perm_place compare x before).mem_iff.1 hb) with rfl | hb
  · exact hx
  · exact hbefore hb

section Place

variable (h : Preordered compare l) {x : α} {before : List α} (hx : x ∈ l) (hbefore : before ⊆ l)
include h hx hbefore

/-- A list in descending order stays so. -/
theorem descending_place (hdesc : before.Pairwise fun a b => compare b a ≠ .gt) :
    (place compare x before).Pairwise fun a b => compare b a ≠ .gt := by
  induction before with
  | nil => exact List.pairwise_singleton _ _
  | cons y rest ih =>
      obtain ⟨hy, hrest⟩ := List.cons_subset.1 hbefore
      obtain ⟨hhead, htail⟩ := List.pairwise_cons.1 hdesc
      rw [place]
      split
      · rename_i hlt
        refine List.pairwise_cons.2 ⟨fun b hb => ?_, ih hrest htail⟩
        rcases List.mem_cons.1 ((perm_place compare x rest).mem_iff.1 hb) with rfl | hb
        · rw [hlt]
          decide
        · exact hhead b hb
      · rename_i hge
        refine List.pairwise_cons.2 ⟨fun b hb => ?_, hdesc⟩
        have hyx : compare y x ≠ .gt := fun hgt => hge ((h.gt_iff hy hx).1 hgt)
        rcases List.mem_cons.1 hb with rfl | hb
        · exact hyx
        · exact (h.coherent b (hrest hb) y hy x hx).ne_gt (hhead b hb) hyx

/-- An element is put before all that compare equal to it. -/
theorem filter_place {a : α} (ha : a ∈ l) :
    (place compare x before).filter (fun b => (compare b a).isEq) =
      (x :: before).filter fun b => (compare b a).isEq := by
  induction before with
  | nil => rfl
  | cons y rest ih =>
      obtain ⟨hy, hrest⟩ := List.cons_subset.1 hbefore
      rw [place]
      split
      · rename_i hlt
        -- Of `x` and what is greater, at most one compares equal to `a`.
        have hone : (compare x a).isEq = true → (compare y a).isEq = false := by
          intro hxa
          by_contra hya
          have hxa : compare x a = .eq := by simpa using hxa
          have hya : compare y a = .eq := by simpa using hya
          have heq := (h.coherent x hx a ha y hy).left hxa
          rw [(h.eq_comm hy ha).1 hya, hlt] at heq
          cases heq
        rw [List.filter_cons, ih hrest]
        cases hxa : (compare x a).isEq <;> simp [List.filter_cons, hxa, hone]
      · rfl

end Place

/-- Places elements into a list in descending order, one after the other. -/
def placeAll (compare : α → α → Ordering) (before rest : List α) : List α :=
  rest.foldl (fun sorted x => place compare x sorted) before

theorem perm_placeAll (compare : α → α → Ordering) (before rest : List α) :
    (placeAll compare before rest).Perm (rest.reverse ++ before) := by
  induction rest generalizing before with
  | nil => exact .refl before
  | cons x rest ih =>
      rw [List.reverse_cons, List.append_assoc, List.singleton_append]
      exact (ih (place compare x before)).trans ((perm_place compare x before).append_left _)

section PlaceAll

variable (h : Preordered compare l) {before rest : List α} (hrest : rest ⊆ l) (hbefore : before ⊆ l)
include h hrest hbefore

theorem descending_placeAll (hdesc : before.Pairwise fun a b => compare b a ≠ .gt) :
    (placeAll compare before rest).Pairwise fun a b => compare b a ≠ .gt := by
  induction rest generalizing before with
  | nil => exact hdesc
  | cons x rest ih =>
      obtain ⟨hx, hrest⟩ := List.cons_subset.1 hrest
      exact ih hrest (place_subset hx hbefore) (descending_place h hx hbefore hdesc)

theorem filter_placeAll {a : α} (ha : a ∈ l) :
    (placeAll compare before rest).filter (fun b => (compare b a).isEq) =
      (rest.reverse ++ before).filter fun b => (compare b a).isEq := by
  induction rest generalizing before with
  | nil => rfl
  | cons x rest ih =>
      obtain ⟨hx, hrest⟩ := List.cons_subset.1 hrest
      change (placeAll compare (place compare x before) rest).filter _ = _
      rw [ih hrest (place_subset hx hbefore), List.filter_append, filter_place h hx hbefore ha,
        ← List.filter_append, List.reverse_cons, List.append_assoc, List.singleton_append]

end PlaceAll

theorem perm_sortBy (compare : α → α → Ordering) (l : List α) : (sortBy compare l).Perm l := by
  have hperm := perm_placeAll compare [] l
  rw [List.append_nil] at hperm
  exact (List.reverse_perm _).trans (hperm.trans (List.reverse_perm l))

/-- **Sorting is stable** where the comparisons are those of a preorder. -/
theorem stable_sortBy (h : Preordered compare l) : Stable compare l (sortBy compare l) where
  perm := perm_sortBy compare l
  ascending :=
    List.pairwise_reverse.2
      (descending_placeAll h (List.Subset.refl l) (List.nil_subset l) List.Pairwise.nil)
  stable a ha := by
    have hfilter := filter_placeAll h (List.Subset.refl l) (List.nil_subset l) ha
    rw [List.append_nil, List.filter_reverse] at hfilter
    change (placeAll compare [] l).reverse.filter _ = _
    rw [List.filter_reverse, hfilter, List.reverse_reverse]

/-! ## Sorting is determined -/

/-- **There is one stable order**: lists in ascending order with the same elements are the same, if
those that compare equal stand in the same order. -/
theorem eq_of_ascending {s t : List α} (h : Preordered compare s) (hperm : s.Perm t)
    (hs : Ascending compare s) (ht : Ascending compare t)
    (hfilter : ∀ a ∈ s, s.filter (fun b => (compare b a).isEq) =
      t.filter fun b => (compare b a).isEq) : s = t := by
  induction s generalizing t with
  | nil => exact (List.nil_perm.1 hperm).symm
  | cons a s ih =>
      cases t with
      | nil => exact absurd hperm.eq_nil (List.cons_ne_nil a s)
      | cons b t =>
          obtain ⟨hsa, hss⟩ := List.pairwise_cons.1 hs
          obtain ⟨htb, htt⟩ := List.pairwise_cons.1 ht
          have hself : compare a a = .eq := by
            have hswap := h.swap a List.mem_cons_self a List.mem_cons_self
            cases haa : compare a a <;> simp [haa] at hswap ⊢
          -- Of the two first elements, none comes after the other, so they compare equal.
          have hb : b ∈ a :: s := hperm.mem_iff.2 List.mem_cons_self
          have ha : a ∈ b :: t := hperm.mem_iff.1 List.mem_cons_self
          have hba : compare b a = .eq := by
            have hle : compare b a ≠ .gt := by
              rcases List.mem_cons.1 ha with rfl | ha
              · rw [hself]
                decide
              · exact htb a ha
            have hge : compare a b ≠ .gt := by
              rcases List.mem_cons.1 hb with rfl | hb
              · rw [hself]
                decide
              · exact hsa b hb
            have hlt : compare b a ≠ .lt := fun hlt =>
              hge ((h.gt_iff List.mem_cons_self hb).2 hlt)
            cases hcompare : compare b a <;> simp_all
          have hcons := hfilter a List.mem_cons_self
          rw [List.filter_cons_of_pos (by simp [hself]), List.filter_cons_of_pos (by simp [hba])]
            at hcons
          obtain ⟨rfl, -⟩ := List.cons.inj hcons
          have htail : Preordered compare s := h.mono (List.subset_cons_self a s)
          refine congrArg (a :: ·) (ih htail hperm.cons_inv hss htt fun c hc => ?_)
          have hrest := hfilter c (List.mem_cons_of_mem a hc)
          rw [List.filter_cons, List.filter_cons] at hrest
          split at hrest
          · exact (List.cons.inj hrest).2
          · exact hrest

theorem Stable.unique (h : Preordered compare l) {s t : List α} (hs : Stable compare l s)
    (ht : Stable compare l t) : s = t := by
  refine eq_of_ascending (h.mono hs.perm.subset) (hs.perm.trans ht.perm.symm) hs.ascending
    ht.ascending fun a ha => ?_
  have hl : a ∈ l := hs.perm.mem_iff.1 ha
  rw [hs.stable a hl, ht.stable a hl]

theorem Stable.filter {s : List α} (h : Stable compare l s) (p : α → Bool) :
    Stable compare (l.filter p) (s.filter p) where
  perm := h.perm.filter p
  ascending := h.ascending.filter p
  stable a ha := by
    have hclass := h.stable a (List.mem_filter.1 ha).1
    rw [List.filter_comm, hclass, List.filter_comm]

/-- **What is left out may be left out before sorting.** -/
theorem filter_sortBy (h : Preordered compare l) (p : α → Bool) :
    (sortBy compare l).filter p = sortBy compare (l.filter p) := by
  have hfiltered : Preordered compare (l.filter p) := h.mono List.filter_sublist.subset
  exact ((stable_sortBy h).filter p).unique hfiltered (stable_sortBy hfiltered)

/-! ## Elements with keys -/

theorem place_map (f : β → α) (x : β) (l : List β) :
    place compare (f x) (l.map f) = (place (fun a b => compare (f a) (f b)) x l).map f := by
  induction l with
  | nil => rfl
  | cons y rest ih =>
      rw [List.map_cons, place, place, ih]
      split <;> rfl

/-- Elements can be sorted before they are reduced to what they are compared by. -/
theorem sortBy_map (f : β → α) (l : List β) :
    sortBy compare (l.map f) = (sortBy (fun a b => compare (f a) (f b)) l).map f := by
  have hfold (before : List β) : (l.map f).foldl (fun sorted x => place compare x sorted)
      (before.map f) =
        (l.foldl (fun sorted x => place (fun a b => compare (f a) (f b)) x sorted)
          before).map f := by
    induction l generalizing before with
    | nil => rfl
    | cons x rest ih =>
        rw [List.map_cons, List.foldl_cons, place_map, ih, List.foldl_cons]
  rw [sortBy, sortBy, List.map_reverse]
  exact congrArg List.reverse (hfold [])

/-! ## First extremes -/

section Extremes

variable {cmp : α → α → Ordering} {xs ys : List α} {v w : α}

/-- The first of the least elements of a list. -/
structure EarliestLeast (cmp : α → α → Ordering) (l : List α) (v : α) : Prop where
  least : ∀ w ∈ l, cmp v w ≠ .gt
  /-- All elements before it are greater. -/
  earliest : ∃ before after, l = before ++ v :: after ∧ ∀ w ∈ before, cmp v w = .lt

/-- The element before, unless the new one is less. -/
def keep (cmp : α → α → Ordering) : Option α → α → Option α
  | none, v => some v
  | some b, v => if cmp v b = .lt then some v else some b

/-- What is left of a list when the lesser element is kept, from the left to the right. -/
def best? (cmp : α → α → Ordering) (l : List α) : Option α := l.foldl (keep cmp) none

theorem EarliestLeast.mem (h : EarliestLeast cmp l v) : v ∈ l := by
  obtain ⟨before, after, rfl, -⟩ := h.earliest
  exact List.mem_append_right _ List.mem_cons_self

theorem Preordered.self (h : Preordered cmp l) (hv : v ∈ l) : cmp v v = .eq := by
  have hswap := h.swap v hv v hv
  cases hvv : cmp v v <;> simp [hvv] at hswap ⊢

/-- The order turned around. -/
theorem Preordered.flip (h : Preordered cmp l) : Preordered (fun a b => cmp b a) l where
  swap a ha b hb := h.swap b hb a ha
  coherent a ha b hb c hc := (h.coherent c hc b hb a ha).reverse

theorem Preordered.not_lt_of_ne_gt (h : Preordered cmp l) (hv : v ∈ l) (hw : w ∈ l)
    (hle : cmp v w ≠ .gt) : cmp w v ≠ .lt := fun hlt => hle ((h.gt_iff hv hw).2 hlt)

theorem Preordered.ne_gt_of_not_lt (h : Preordered cmp l) (hv : v ∈ l) (hw : w ∈ l)
    (hle : cmp w v ≠ .lt) : cmp v w ≠ .gt := fun hgt => hle ((h.gt_iff hv hw).1 hgt)

theorem EarliestLeast.singleton (h : Preordered cmp [v]) : EarliestLeast cmp [v] v where
  least w hw := by
    rw [List.mem_singleton.1 hw, h.self (List.mem_singleton_self v)]
    decide
  earliest := ⟨[], [], rfl, List.forall_mem_nil _⟩

section Append

variable (h : Preordered cmp (xs ++ ys)) (hv : EarliestLeast cmp xs v)
  (hw : EarliestLeast cmp ys w)
include h hv hw

/-- The first part has the least element if that of the second part is not less. -/
theorem EarliestLeast.append_left (hle : cmp w v ≠ .lt) : EarliestLeast cmp (xs ++ ys) v where
  least u hu := by
    have hvmem := List.mem_append_left ys hv.mem
    have hwmem := List.mem_append_right xs hw.mem
    rcases List.mem_append.1 hu with hu' | hu'
    · exact hv.least u hu'
    · exact (h.coherent v hvmem w hwmem u hu).ne_gt (h.ne_gt_of_not_lt hvmem hwmem hle)
        (hw.least u hu')
  earliest := by
    obtain ⟨before, after, rfl, hbefore⟩ := hv.earliest
    exact ⟨before, after ++ ys, by simp, hbefore⟩

theorem EarliestLeast.append_right (hlt : cmp w v = .lt) : EarliestLeast cmp (xs ++ ys) w := by
  have hfirst (u : α) (hu : u ∈ xs) : cmp w u = .lt :=
    (h.coherent w (List.mem_append_right xs hw.mem) v (List.mem_append_left ys hv.mem) u
      (List.mem_append_left ys hu)).lt_of_lt_of_ne_gt hlt (hv.least u hu)
  refine ⟨fun u hu => ?_, ?_⟩
  · rcases List.mem_append.1 hu with hu | hu
    · rw [hfirst u hu]
      decide
    · exact hw.least u hu
  · obtain ⟨before, after, rfl, hbefore⟩ := hw.earliest
    refine ⟨xs ++ before, after, by simp, fun u hu => ?_⟩
    exact (List.mem_append.1 hu).elim (hfirst u) (hbefore u)

/-- **Two parts.** The better of their earliest least elements is that of the whole. -/
theorem EarliestLeast.keep : ∃ u, keep cmp (some v) w = some u ∧
    EarliestLeast cmp (xs ++ ys) u := by
  rw [Sorting.keep]
  split
  · rename_i hlt
    exact ⟨w, rfl, hv.append_right h hw hlt⟩
  · rename_i hle
    exact ⟨v, rfl, hv.append_left h hw hle⟩

end Append

/-- **What is kept** is the earliest least element. -/
theorem exists_best? (h : Preordered cmp l) (hl : l ≠ []) :
    ∃ v, best? cmp l = some v ∧ EarliestLeast cmp l v := by
  induction l using List.reverseRecOn with
  | nil => exact absurd rfl hl
  | append_singleton l x ih =>
      have hx : EarliestLeast cmp [x] x := .singleton (h.mono (List.subset_append_right l [x]))
      rw [best?, List.foldl_append]
      by_cases hnil : l = []
      · subst hnil
        exact ⟨x, rfl, hx⟩
      · obtain ⟨v, hbest, hv⟩ := ih (h.mono (List.subset_append_left l [x])) hnil
        rw [best?] at hbest
        rw [hbest]
        exact hv.keep h hx

/-- An element that comes after a least one is not less than it. -/
theorem EarliestLeast.eq_of_split (h : Preordered cmp l) (hv : EarliestLeast cmp l v) (hw : w ∈ l)
    {between after after' : List α} (hsplit : v :: after = between ++ w :: after')
    (hbetween : ∀ u ∈ between, cmp w u = .lt) : v = w := by
  cases between with
  | nil => exact (List.cons.inj hsplit).1
  | cons u rest =>
      obtain rfl : v = u := (List.cons.inj hsplit).1
      exact absurd (hbetween v List.mem_cons_self)
        (h.not_lt_of_ne_gt hv.mem hw (hv.least w hw))

/-- **There is one earliest least element.** -/
theorem EarliestLeast.unique (h : Preordered cmp l) (hv : EarliestLeast cmp l v)
    (hw : EarliestLeast cmp l w) : v = w := by
  obtain ⟨before, after, hl, hbefore⟩ := hv.earliest
  obtain ⟨before', after', hl', hbefore'⟩ := hw.earliest
  rcases List.append_eq_append_iff.1 (hl.symm.trans hl') with
    ⟨between, rfl, hsplit⟩ | ⟨between, rfl, hsplit⟩
  · exact hv.eq_of_split h hw.mem hsplit fun u hu => hbefore' u (List.mem_append_right _ hu)
  · exact (hw.eq_of_split h hv.mem hsplit fun u hu => hbefore u (List.mem_append_right _ hu)).symm

/-- **A list may be cut**, and the parts searched apart. -/
theorem best?_append (h : Preordered cmp (xs ++ ys)) : best? cmp (xs ++ ys) =
    best? cmp ((best? cmp xs).toList ++ (best? cmp ys).toList) := by
  have hxs := h.mono (List.subset_append_left xs ys)
  have hys := h.mono (List.subset_append_right xs ys)
  by_cases hx : xs = []
  · subst hx
    cases hbest : best? cmp ys with
    | none => exact hbest
    | some w => exact hbest
  · obtain ⟨v, hv, hvleast⟩ := exists_best? hxs hx
    by_cases hy : ys = []
    · subst hy
      rw [List.append_nil, hv]
      rfl
    · obtain ⟨w, hw, hwleast⟩ := exists_best? hys hy
      obtain ⟨u, hu, huleast⟩ := exists_best? h (List.append_ne_nil_of_left_ne_nil hx ys)
      obtain ⟨u', hu', hleast⟩ := hvleast.keep h hwleast
      rw [hu, hv, hw, huleast.unique h hleast]
      exact hu'.symm

end Extremes

end Sorting

end DocStore
