import DocStore.Value.Order
import DocStore.Value.Path

/-!
# Sorting

Lists are sorted by insertion from the end, which keeps the order of what compares equal. Documents
are sorted by the values of several paths; a path that leads nowhere counts as null.
-/

set_option autoImplicit false

namespace DocStore

/-! ## Insertion -/

namespace Sorting

variable {α : Type}

/-- Puts an element into a list in descending order, behind all that are greater. -/
def place (compare : α → α → Ordering) (x : α) : List α → List α
  | [] => [x]
  | y :: rest => if compare x y = .lt then y :: place compare x rest else x :: y :: rest

/-- The list in ascending order; elements that compare equal keep their order. -/
def sortBy (compare : α → α → Ordering) (l : List α) : List α :=
  (l.foldl (fun sorted x => place compare x sorted) []).reverse

theorem perm_place (compare : α → α → Ordering) (x : α) (l : List α) :
    (place compare x l).Perm (x :: l) := by
  induction l with
  | nil => exact .refl _
  | cons y rest ih =>
      simp only [place]
      split
      · exact (ih.cons y).trans (.swap x y rest)
      · exact .refl _

/-- A list is left as it is by an order in which nothing comes before anything else. -/
theorem sortBy_of_ne_lt {compare : α → α → Ordering} (h : ∀ a b, compare a b ≠ .lt) (l : List α) :
    sortBy compare l = l := by
  have hplace (x : α) (sorted : List α) : place compare x sorted = x :: sorted := by
    cases sorted with
    | nil => rfl
    | cons y rest => rw [place, if_neg (h x y)]
  have hfold (sorted : List α) :
      l.foldl (fun sorted x => place compare x sorted) sorted = l.reverse ++ sorted := by
    induction l generalizing sorted with
    | nil => rfl
    | cons x rest => simp [hplace]
  rw [sortBy, hfold, List.append_nil, List.reverse_reverse]

end Sorting

/-! ## Sort keys -/

/-- The direction of a sort key. -/
inductive SortDirection where
  | ascending
  | descending
deriving DecidableEq, Repr

namespace SortDirection

/-- The direction of a number: one upwards, minus one downwards. -/
def ofInt? (n : Int) : Option SortDirection :=
  if n = 1 then some ascending else if n = -1 then some descending else none

/-- The order read in the direction. -/
def orient : SortDirection → Ordering → Ordering
  | ascending, o => o
  | descending, o => o.swap

end SortDirection

/-- A path with the direction in which its values are to be sorted. -/
structure SortKey where
  path : String
  direction : SortDirection

namespace SortKey

/-- Order of two documents by the values of the keys: the first difference decides. -/
def compareValues : List SortKey → List (Option Value) → List (Option Value) → Ordering
  | key :: keys, a :: as, b :: bs =>
    (key.direction.orient (Value.compareOptional a b)).then (compareValues keys as bs)
  | _, _, _ => .eq

/-- Sorts documents by keys. -/
def sort (keys : List SortKey) (docs : List Value) : List Value :=
  let keyed := docs.map fun d => (keys.map fun key => d.resolve? key.path, d)
  (Sorting.sortBy (fun a b => compareValues keys a.1 b.1) keyed).map (·.2)

/-- Without keys nothing is sorted. -/
@[simp] theorem sort_nil (docs : List Value) : sort [] docs = docs := by
  simp [sort, Sorting.sortBy_of_ne_lt, compareValues, Function.comp_def]

end SortKey

end DocStore
