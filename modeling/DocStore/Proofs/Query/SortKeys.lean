import DocStore.Proofs.Query.Sorting
import DocStore.Proofs.Value.Comparable
import DocStore.Proofs.Value.Edit

/-!
# Sorting by keys

Documents are compared by several keys in turn, a key that leads nowhere counting as null. If all
integers in the documents are `Precise`, this is a preorder, and `SortKey.sort` gives the documents
in its order, those that no key tells apart as they stood before: `SortKey.sorts_sort`.
-/

set_option autoImplicit false

namespace DocStore

/-! ## Precise values -/

namespace Value

/-- A value with precise integers only, at every depth. -/
def AllPrecise : Value → Prop := Everywhere Precise fun _ => True

variable {L : Value → Prop} {N : List (String × Value) → Prop}

mutual

theorem Everywhere.leaves : ∀ {v : Value}, Everywhere L N v → ∀ w ∈ leaves v, L w
  | .array _, h, w, hw => EverywhereItems.leaves h w hw
  | .object _, h, w, hw => EverywhereFields.leaves h.2 w hw
  | .null, h, _, hw | .bool _, h, _, hw | .int _, h, _, hw | .float _, h, _, hw
  | .string _, h, _, hw | .date _, h, _, hw => by
      rw [List.mem_singleton.1 hw]
      exact h

theorem EverywhereItems.leaves : ∀ {items : List Value}, EverywhereItems L N items →
    ∀ w ∈ itemLeaves items, L w
  | _ :: _, h, w, hw => by
      rcases List.mem_append.1 hw with hw | hw
      · exact h.1.leaves w hw
      · exact EverywhereItems.leaves h.2 w hw

theorem EverywhereFields.leaves : ∀ {fields : List (String × Value)},
    EverywhereFields L N fields → ∀ w ∈ fieldLeaves fields, L w
  | _ :: _, h, w, hw => by
      rcases List.mem_append.1 hw with hw | hw
      · exact h.1.leaves w hw
      · exact EverywhereFields.leaves h.2 w hw

end

/-- **The order of values is transitive** where all integers are precise. -/
theorem coherent_compare_of_allPrecise {a b c : Value} (ha : a.AllPrecise) (hb : b.AllPrecise)
    (hc : c.AllPrecise) : Coherent (compare a b) (compare b c) (compare a c) := by
  refine coherent_of_ranked fun hab hbc => coherent_compareRanked a b c hab hbc ?_
  refine separated_of_precise fun v hv => ?_
  rcases List.mem_append.1 hv with hv | hv
  · rcases List.mem_append.1 hv with hv | hv
    · exact ha.leaves v hv
    · exact hb.leaves v hv
  · exact hc.leaves v hv

end Value

namespace SortKey

/-! ## The order of documents -/

/-- What a document is compared by; a missing value counts as null. -/
def valueOf (key : SortKey) (doc : Value) : Value := (doc.resolve? key.path).getD .null

/-- Order of two documents by one key. -/
def compareBy (key : SortKey) (a b : Value) : Ordering :=
  if key.direction = .ascending then Value.compare (key.valueOf a) (key.valueOf b)
  else Value.compare (key.valueOf b) (key.valueOf a)

/-- The first key that tells two documents apart puts the one after the other. -/
def After (keys : List SortKey) (a b : Value) : Prop :=
  ∃ before key rest, keys = before ++ key :: rest ∧
    (∀ k ∈ before, k.compareBy a b = .eq) ∧ key.compareBy a b = .gt

/-- No key tells two documents apart. -/
def Level (keys : List SortKey) (a b : Value) : Prop := ∀ key ∈ keys, key.compareBy a b = .eq

instance (keys : List SortKey) (a b : Value) : Decidable (Level keys a b) :=
  inferInstanceAs (Decidable (∀ key ∈ keys, key.compareBy a b = .eq))

/-- The documents are sorted by the keys, those on one level in the order that they had. -/
structure Sorts (keys : List SortKey) (docs sorted : List Value) : Prop where
  perm : sorted.Perm docs
  ordered : sorted.Pairwise fun a b => ¬ After keys a b
  stable : ∀ d ∈ docs, sorted.filter (Level keys · d) = docs.filter (Level keys · d)

/-- Order of two documents by the values of all keys. -/
def compareDocs (keys : List SortKey) (a b : Value) : Ordering :=
  compareValues keys (keys.map fun key => a.resolve? key.path)
    (keys.map fun key => b.resolve? key.path)

section Order

variable (key : SortKey) (keys : List SortKey) (a b : Value)

/-- A descending key turns the order around. -/
theorem orient_compareOptional :
    key.direction.orient (Value.compareOptional (a.resolve? key.path) (b.resolve? key.path)) =
      key.compareBy a b := by
  rw [compareBy]
  cases key.direction with
  | ascending => rfl
  | descending => exact Value.compare_swap (key.valueOf a) (key.valueOf b)

theorem compareDocs_cons :
    compareDocs (key :: keys) a b = (key.compareBy a b).then (compareDocs keys a b) := by
  rw [← orient_compareOptional]
  rfl

theorem compareBy_swap : (key.compareBy a b).swap = key.compareBy b a := by
  rw [compareBy, compareBy]
  split
  · exact Value.compare_swap _ _
  · exact Value.compare_swap _ _

theorem compareDocs_swap : (compareDocs keys a b).swap = compareDocs keys b a := by
  induction keys with
  | nil => rfl
  | cons key rest ih =>
      rw [compareDocs_cons, compareDocs_cons, Ordering.swap_then, compareBy_swap, ih]

variable {keys a b}

theorem compareDocs_eq_eq_iff : compareDocs keys a b = .eq ↔ Level keys a b := by
  induction keys with
  | nil => exact iff_of_true rfl (List.forall_mem_nil _)
  | cons key rest ih =>
      rw [compareDocs_cons, Ordering.then_eq_eq, ih, Level, Level, List.forall_mem_cons]

theorem after_cons_iff : After (key :: keys) a b ↔
    key.compareBy a b = .gt ∨ key.compareBy a b = .eq ∧ After keys a b := by
  constructor
  · rintro ⟨before, k, rest, heq, hbefore, hk⟩
    cases before with
    | nil =>
        cases heq
        exact .inl hk
    | cons k' before =>
        cases heq
        obtain ⟨hfirst, hbefore⟩ := List.forall_mem_cons.1 hbefore
        exact .inr ⟨hfirst, before, k, rest, rfl, hbefore, hk⟩
  · rintro (hgt | ⟨heq, before, k, rest, rfl, hbefore, hk⟩)
    · exact ⟨[], key, keys, rfl, List.forall_mem_nil _, hgt⟩
    · exact ⟨key :: before, k, rest, rfl, List.forall_mem_cons.2 ⟨heq, hbefore⟩, hk⟩

/-- **The first difference decides.** -/
theorem compareDocs_eq_gt_iff : compareDocs keys a b = .gt ↔ After keys a b := by
  induction keys with
  | nil =>
      refine iff_of_false (fun h => ?_) ?_
      · cases h
      · rintro ⟨before, key, rest, hnil, -⟩
        simp at hnil
  | cons key rest ih =>
      rw [compareDocs_cons, after_cons_iff, ← ih]
      cases key.compareBy a b <;> simp

end Order

/-! ## Sorting -/

theorem coherent_compareBy (key : SortKey) {a b c : Value} (ha : a.AllPrecise)
    (hb : b.AllPrecise) (hc : c.AllPrecise) :
    Coherent (key.compareBy a b) (key.compareBy b c) (key.compareBy a c) := by
  have hvalue {d : Value} (hd : d.AllPrecise) : (key.valueOf d).AllPrecise := by
    rw [valueOf]
    cases hresolve : d.resolve? key.path with
    | none => exact trivial
    | some v => exact hd.resolve? hresolve
  rw [compareBy, compareBy, compareBy]
  split
  · exact Value.coherent_compare_of_allPrecise (hvalue ha) (hvalue hb) (hvalue hc)
  · exact (Value.coherent_compare_of_allPrecise (hvalue hc) (hvalue hb) (hvalue ha)).reverse

theorem coherent_compareDocs (keys : List SortKey) {a b c : Value} (ha : a.AllPrecise)
    (hb : b.AllPrecise) (hc : c.AllPrecise) :
    Coherent (compareDocs keys a b) (compareDocs keys b c) (compareDocs keys a c) := by
  induction keys with
  | nil => exact Coherent.eq
  | cons key rest ih =>
      rw [compareDocs_cons, compareDocs_cons, compareDocs_cons]
      exact (coherent_compareBy key ha hb hc).then fun _ _ => ih

theorem preordered_compareDocs (keys : List SortKey) {docs : List Value}
    (h : ∀ d ∈ docs, d.AllPrecise) : Sorting.Preordered (compareDocs keys) docs where
  swap a _ b _ := compareDocs_swap keys a b
  coherent a ha b hb c hc := coherent_compareDocs keys (h a ha) (h b hb) (h c hc)

/-- Documents can be sorted without their keys beside them. -/
theorem sort_eq_sortBy (keys : List SortKey) (docs : List Value) :
    sort keys docs = Sorting.sortBy (compareDocs keys) docs := by
  rw [sort, Sorting.sortBy_map, List.map_map]
  exact List.map_id _

theorem sorts_sortBy (keys : List SortKey) {docs : List Value} (h : ∀ d ∈ docs, d.AllPrecise) :
    Sorts keys docs (Sorting.sortBy (compareDocs keys) docs) := by
  have hstable := Sorting.stable_sortBy (preordered_compareDocs keys h)
  have hlevel (a b : Value) : (compareDocs keys a b).isEq = decide (Level keys a b) := by
    rw [Bool.eq_iff_iff, Ordering.isEq_iff_eq_eq, decide_eq_true_iff, compareDocs_eq_eq_iff]
  exact
    { perm := hstable.perm
      ordered := hstable.ascending.imp fun hle hafter => hle (compareDocs_eq_gt_iff.2 hafter)
      stable := fun d hd => by simpa only [hlevel] using hstable.stable d hd }

/-- **Documents with precise integers are sorted stably**, and filtering them before or after makes
no difference. -/
theorem sorts_sort (keys : List SortKey) (docs : List Value) (h : ∀ d ∈ docs, d.AllPrecise) :
    Sorts keys docs (sort keys docs) ∧
      ∀ p : Value → Bool, (sort keys docs).filter p = sort keys (docs.filter p) := by
  rw [sort_eq_sortBy]
  refine ⟨sorts_sortBy keys h, fun p => ?_⟩
  rw [sort_eq_sortBy]
  exact Sorting.filter_sortBy (preordered_compareDocs keys h) p

theorem sorts_sort_pets :
    let byAge : List SortKey := [⟨"age", .descending⟩]
    let tom : Value := .object [("name", .string "Tom")]
    let rex : Value := .object [("name", .string "Rex"), ("age", .int 3)]
    let ada : Value := .object [("name", .string "Ada"), ("age", .float 3.0)]
    (∀ d ∈ [tom, rex, ada], d.AllPrecise) ∧
      Sorts byAge [tom, rex, ada] [rex, ada, tom] ∧
      ([rex, ada, tom] : List Value).filter (fun d => (d.get? "age").isSome) =
        sort byAge ([tom, rex, ada].filter fun d => (d.get? "age").isSome) := by
  intro byAge tom rex ada
  have hprecise : ∀ d ∈ [tom, rex, ada], d.AllPrecise := by
    have hthree : Value.Precise (.int 3) := by
      show (3 : Int64).toInt.natAbs ≤ 2 ^ 53
      decide
    refine List.forall_mem_cons.2 ⟨⟨trivial, trivial, trivial⟩, List.forall_mem_cons.2 ⟨?_, ?_⟩⟩
    · exact ⟨trivial, trivial, hthree, trivial⟩
    · exact List.forall_mem_singleton.2 ⟨trivial, trivial, trivial, trivial⟩
  obtain ⟨hsorts, hfilter⟩ := sorts_sort byAge [tom, rex, ada] hprecise
  -- A missing age is below all others; an integer and the double that it equals are on one level.
  have hrexTom : compareDocs byAge rex tom = .lt := by decide +kernel
  have hadaTom : compareDocs byAge ada tom = .lt := by decide +kernel
  have hadaRex : compareDocs byAge ada rex = .eq := by decide +kernel
  have hsort : sort byAge [tom, rex, ada] = [rex, ada, tom] := by
    rw [sort_eq_sortBy]
    simp [Sorting.sortBy, Sorting.place, hrexTom, hadaTom, hadaRex]
  rw [hsort] at hsorts hfilter
  exact ⟨hprecise, hsorts, hfilter _⟩

end SortKey

end DocStore
