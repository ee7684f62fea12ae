import DocStore.Expr.Reader
import DocStore.Proofs.Number.Exact
import DocStore.Proofs.Number.Rounding

/-!
# Slices of arrays

`$slice` gives a front part, an end or an inner part of an array, whose bounds are the exact ones
for all machine integers and for all doubles that stand for one: `Expr.Slices`. The bounds are sums
of a length and a machine integer of the other sign, so they can be computed in machine integers as
well: `Operators.window?`.
-/

set_option autoImplicit false

namespace DocStore

open Checked (Fits)

/-! ## Items of a list -/

namespace Operators

section Items

variable {α : Type} (items : List α)

theorem takeItems_of_nonneg {n : Int} (h : 0 ≤ n) : ∃ front rest,
    takeItems items n = front ∧ items = front ++ rest ∧
      (front.length : Int) = min n items.length := by
  refine ⟨items.take n.toNat, items.drop n.toNat, if_pos h, (List.take_append_drop _ _).symm, ?_⟩
  rw [List.length_take]
  omega

theorem takeItems_of_neg {n : Int} (h : n < 0) : ∃ before rest,
    takeItems items n = rest ∧ items = before ++ rest ∧
      (rest.length : Int) = min (-n) items.length := by
  refine ⟨items.take (items.length + n).toNat, items.drop (items.length + n).toNat,
    if_neg (by omega), (List.take_append_drop _ _).symm, ?_⟩
  rw [List.length_drop]
  omega

/-- The place where a slice starts. A position counts from the end if it is negative, and one beyond
an end of the array stands for that end. -/
def startOf (position : Int) (length : Nat) : Int :=
  if 0 ≤ position then min position length else max (length + position) 0

theorem sliceItems_of_pos (position : Int) {n : Int} (h : 0 < n) : ∃ before part after,
    sliceItems items position n = part ∧ items = before ++ part ++ after ∧
      (before.length : Int) = startOf position items.length ∧
      (before.length + part.length : Int) =
        min (startOf position items.length + n) items.length := by
  unfold sliceItems
  dsimp only
  generalize hstart : (if position < 0 then (items.length : Int) + position else position) = start
  have hplace : startOf position items.length = min (start.toNat : Int) items.length := by
    unfold startOf
    split <;> split at hstart <;> omega
  refine ⟨items.take start.toNat, _, (items.drop start.toNat).drop n.toNat, rfl, ?_, ?_, ?_⟩
  · rw [List.append_assoc, List.take_append_drop, List.take_append_drop]
  · rw [hplace, List.length_take]
    omega
  · rw [hplace, List.length_take, List.length_take, List.length_drop]
    omega

/-- **The first items and the others** make the list again. -/
theorem takeItems_append {k m : Int} (hk : 0 ≤ k) (hle : k ≤ items.length)
    (hm : m = k - items.length) : takeItems items k ++ takeItems items m = items := by
  rw [takeItems, if_pos hk, takeItems]
  split
  · -- Only all items leave none over.
    have hall : k.toNat = items.length := by omega
    have hnone : m.toNat = 0 := by omega
    rw [hall, hnone, List.take_length, List.take_zero, List.append_nil]
  · have hrest : (items.length + m).toNat = k.toNat := by omega
    rw [hrest, List.take_append_drop]

end Items

/-! ## Machine integers -/

/-- Where a slice starts and how many items it takes at most, in machine integers. -/
structure Window where
  start : Int64
  size : Int64

/-- The items of a window. -/
def Window.of {α : Type} (w : Window) (items : List α) : List α :=
  (items.drop w.start.toInt.toNat).take w.size.toInt.toNat

/-- The bounds are none below the first item. -/
structure Window.Nonneg (w : Window) : Prop where
  start : 0 ≤ w.start.toInt
  size : 0 ≤ w.size.toInt

/-- The length and a negative number, zero if the sum is negative, or none if it overflows. -/
def fromEnd? (length n : Int64) : Option Int64 :=
  (Checked.add? length n).map fun start => if start.toInt < 0 then 0 else start

/-- The window of a slice of an array of some length, or none if a sum overflows. -/
def window? (length : Int64) (position? : Option Int64) (count : Int64) : Option Window :=
  match position? with
  | none =>
    if 0 ≤ count.toInt then some ⟨0, count⟩ else (fromEnd? length count).map (⟨·, length⟩)
  | some position =>
    if position.toInt < 0 then (fromEnd? length position).map (⟨·, count⟩)
    else some ⟨if position.toInt ≤ length.toInt then position else length, count⟩

section Window

variable {α : Type} {items : List α} (hlength : items.length < 2 ^ 63)
include hlength

theorem fromEnd?_eq_some {n : Int64} (hn : n.toInt < 0) :
    ∃ start, fromEnd? (Int64.ofNat items.length) n = some start ∧
      start.toInt = max (items.length + n.toInt) 0 := by
  have hlow : (Int64.ofNat items.length).toInt = items.length := Int64.toInt_ofNat_of_lt hlength
  have hfits : Fits (items.length + n.toInt) := by
    have hmin : Int64.minValue.toInt = -2 ^ 63 := rfl
    have hmax : Int64.maxValue.toInt = 2 ^ 63 - 1 := rfl
    have hn' := n.le_toInt
    exact ⟨by omega, by omega⟩
  obtain ⟨start, hstart⟩ := hfits.exists_toInt
  refine ⟨if start.toInt < 0 then 0 else start, ?_, ?_⟩
  · rw [fromEnd?, Checked.add?, hlow, Checked.ofInt?_eq_some_iff.2 hstart]
    rfl
  · split
    · show (0 : Int) = _
      omega
    · omega

/-- **The first or last items in machine integers**: no sum overflows. -/
theorem window?_none (count : Int64) : ∃ w : Window,
    window? (Int64.ofNat items.length) none count = some w ∧ w.Nonneg ∧
      w.of items = takeItems items count.toInt := by
  by_cases hcount : 0 ≤ count.toInt
  · refine ⟨⟨0, count⟩, if_pos hcount, ⟨le_refl 0, hcount⟩, ?_⟩
    rw [takeItems, if_pos hcount]
    rfl
  · obtain ⟨start, hstart, hplace⟩ := fromEnd?_eq_some hlength (Int.not_le.1 hcount)
    have hsize : (Int64.ofNat items.length).toInt = items.length := Int64.toInt_ofNat_of_lt hlength
    have hstarts : 0 ≤ start.toInt := by rw [hplace]; omega
    have hcounts : 0 ≤ (Int64.ofNat items.length).toInt := by rw [hsize]; omega
    refine ⟨⟨start, Int64.ofNat items.length⟩, ?_, ⟨hstarts, hcounts⟩, ?_⟩
    · rw [window?, if_neg hcount, hstart]
      rfl
    · have hdrop : start.toInt.toNat = (items.length + count.toInt).toNat := by omega
      rw [Window.of, hsize, hdrop, takeItems, if_neg hcount]
      exact List.take_of_length_le (by rw [List.length_drop]; omega)

/-- **Items from a position on in machine integers**: no sum overflows. -/
theorem window?_some (position : Int64) {count : Int64} (hcount : 0 < count.toInt) :
    ∃ w : Window, window? (Int64.ofNat items.length) (some position) count = some w ∧ w.Nonneg ∧
      w.of items = sliceItems items position.toInt count.toInt := by
  have hsize : (Int64.ofNat items.length).toInt = items.length := Int64.toInt_ofNat_of_lt hlength
  by_cases hposition : position.toInt < 0
  · obtain ⟨start, hstart, hplace⟩ := fromEnd?_eq_some hlength hposition
    refine ⟨⟨start, count⟩, ?_, ⟨by rw [hplace]; omega, hcount.le⟩, ?_⟩
    · rw [window?, if_pos hposition, hstart]
      rfl
    · have hdrop : start.toInt.toNat = (items.length + position.toInt).toNat := by omega
      rw [Window.of, hdrop, sliceItems, if_pos hposition]
  · refine ⟨_, if_neg hposition, ⟨?_, hcount.le⟩, ?_⟩
    · show 0 ≤ (if position.toInt ≤ _ then position else Int64.ofNat items.length).toInt
      split <;> omega
    · rw [Window.of, sliceItems, if_neg hposition, hsize]
      split
      · rfl
      · -- Nothing follows the end of the array.
        rw [hsize, List.drop_of_length_le (by omega), List.drop_of_length_le (by omega)]

end Window

/-! ## Arguments -/

/-- The machine integer that an argument stands for: an integer, or a double without a fraction, the
ends of the range standing for what lies beyond them. -/
inductive Whole : Value → Int64 → Prop where
  | int (n : Int64) : Whole (.int n) n
  | float {f : Float} {k : Int} {n : Int64} (hfinite : Binary64.isFinite f = true)
      (hexact : Binary64.scaled f = k * Binary64.unit)
      (hclamped : n.toInt = max (-2 ^ 63) (min k (2 ^ 63 - 1))) : Whole (.float f) n

theorem Whole.integral_eq {v : Value} {n : Int64} (h : Whole v n) (name : String) :
    integral name v = .ok n := by
  cases h with
  | int n => rfl
  | @float f k n hfinite hexact hclamped =>
      have hwhole : Binary64.isIntegral f = true := by
        rw [Binary64.isIntegral, hfinite, hexact, Int.mul_emod_left]
        rfl
      have htruncate : Binary64.truncate f = k := by
        rw [Binary64.truncate, hexact, Int.mul_tdiv_cancel k Binary64.unit_ne_zero]
      have hsaturate : Binary64.saturate f = n := by
        refine Int64.toInt_inj.1 ?_
        rw [Binary64.toInt_saturate_eq (Binary64.isNaN_eq_false_of_isFinite hfinite), htruncate,
          hclamped]
      show (if Binary64.isIntegral f then Except.ok (Binary64.saturate f) else _) = Except.ok n
      rw [if_pos hwhole, hsaturate]

theorem take_of_whole {items : List Value} {v : Value} {n : Int64} (h : Whole v n) :
    take (.array items) v = .ok (.array (takeItems items n.toInt)) := by
  show (integral "count" v >>= _) = _
  rw [h.integral_eq]
  rfl

section Slice

variable {items : List Value} {u v : Value} {p n : Int64}

theorem slice_of_pos (hu : Whole u p) (hv : Whole v n) (hn : 0 < n.toInt) :
    slice (.array items) u v = .ok (.array (sliceItems items p.toInt n.toInt)) := by
  show (integral "count" v >>= fun count => integral "position" u >>= _) = _
  rw [hv.integral_eq, hu.integral_eq]
  exact if_neg (Int.not_le.2 hn)

theorem slice_of_nonpos (hu : Whole u p) (hv : Whole v n) (hn : n.toInt ≤ 0) :
    slice (.array items) u v = .error (.type (.sliceCount n)) := by
  show (integral "count" v >>= fun count => integral "position" u >>= _) = _
  rw [hv.integral_eq, hu.integral_eq]
  exact if_pos hn

end Slice

end Operators

/-! ## Expressions -/

namespace Expr

open Operators (Whole Window startOf window?)

variable {doc : Value}

theorem eval_take {a n : Expr} {x y : Value} (ha : a.eval doc = .ok x) (hn : n.eval doc = .ok y) :
    (take a n).eval doc = Operators.take x y := by
  obtain ⟨x', hx, ⟨⟩⟩ := bind_eq_ok.1 ha
  obtain ⟨y', hy, ⟨⟩⟩ := bind_eq_ok.1 hn
  refine eval_of_eval?_eq ?_
  rw [eval?, hx, hy]
  rfl

theorem eval_slice {a p n : Expr} {x y z : Value} (ha : a.eval doc = .ok x)
    (hp : p.eval doc = .ok y) (hn : n.eval doc = .ok z) :
    (slice a p n).eval doc = Operators.slice x y z := by
  obtain ⟨x', hx, ⟨⟩⟩ := bind_eq_ok.1 ha
  obtain ⟨y', hy, ⟨⟩⟩ := bind_eq_ok.1 hp
  obtain ⟨z', hz, ⟨⟩⟩ := bind_eq_ok.1 hn
  refine eval_of_eval?_eq ?_
  rw [eval?, hx, hy, hz]
  rfl

/-- JSON is read as an expression that has this result on a document. -/
def Computes (doc : Value) (j : Json) (result : Result Value) : Prop :=
  ∃ e, ofJson j = .ok e ∧ e.eval doc = result

/-- JSON is read as an expression that stands for a machine integer on a document. -/
def Counts (doc : Value) (j : Json) (n : Int64) : Prop :=
  ∃ v, Computes doc j (.ok v) ∧ Whole v n

theorem computes_number (doc : Value) (n : Json.Number) :
    Computes doc (.number n) (.ok (.ofJson (.number n))) := by
  refine ⟨literal (.ofJson (.number n)), ?_, rfl⟩
  rw [ofJson, read]
  · rfl
  all_goals simp

/-- The JSON of a slice with its arguments. -/
def sliced (args : List Json) : Json := .object [("$slice", .array args)]

theorem readItems_eq_ok {js : List Json} {es : List Expr}
    (h : List.Forall₂ (fun j e => ofJson j = .ok e) js es) :
    (readItems js : Result (List Expr)) = .ok es := by
  induction h with
  | nil => rw [readItems]; rfl
  | @cons j e rest more hj _ ih =>
      have hread : (read j : Result Expr) = .ok e := hj
      rw [readItems, hread, ih]
      rfl

theorem ofJson_sliced (args : List Json) :
    ofJson (sliced args) = readOperator "$slice" (.array args) := by
  have hoperator : Segments.isOperator "$slice" = true := by decide
  rw [ofJson, sliced, read, if_pos hoperator]

section Computes

variable {a i j : Json} {x y z : Value}

theorem computes_take (ha : Computes doc a (.ok x)) (hj : Computes doc j (.ok y)) :
    Computes doc (sliced [a, j]) (Operators.take x y) := by
  obtain ⟨array, harray, hx⟩ := ha
  obtain ⟨count, hcount, hy⟩ := hj
  refine ⟨take array count, ?_, eval_take hx hy⟩
  rw [ofJson_sliced, readOperator, readArguments,
    readItems_eq_ok (.cons harray (.cons hcount .nil))]
  rfl

theorem computes_slice (ha : Computes doc a (.ok x)) (hi : Computes doc i (.ok y))
    (hj : Computes doc j (.ok z)) :
    Computes doc (sliced [a, i, j]) (Operators.slice x y z) := by
  obtain ⟨array, harray, hx⟩ := ha
  obtain ⟨position, hposition, hy⟩ := hi
  obtain ⟨count, hcount, hz⟩ := hj
  refine ⟨slice array position count, ?_, eval_slice hx hy hz⟩
  rw [ofJson_sliced, readOperator, readArguments,
    readItems_eq_ok (.cons harray (.cons hposition (.cons hcount .nil)))]
  rfl

end Computes

/-- What slices of an array are: JSON that computes it is given with arguments that stand for
machine integers. -/
structure Slices (doc : Value) (a : Json) (items : List Value) : Prop where
  /-- A count that is not negative is the number of first items. -/
  first : ∀ j n, Counts doc j n → 0 ≤ n.toInt → ∃ front rest,
    Computes doc (sliced [a, j]) (.ok (.array front)) ∧ items = front ++ rest ∧
      (front.length : Int) = min n.toInt items.length
  /-- A negative count is that of last items. -/
  last : ∀ j n, Counts doc j n → n.toInt < 0 → ∃ before rest,
    Computes doc (sliced [a, j]) (.ok (.array rest)) ∧ items = before ++ rest ∧
      (rest.length : Int) = min (-n.toInt) items.length
  /-- With a position, so many items from there on. -/
  inner : ∀ i j p n, Counts doc i p → Counts doc j n → 0 < n.toInt → ∃ before part after,
    Computes doc (sliced [a, i, j]) (.ok (.array part)) ∧ items = before ++ part ++ after ∧
      (before.length : Int) = startOf p.toInt items.length ∧
      (before.length + part.length : Int) =
        min (startOf p.toInt items.length + n.toInt) items.length
  refused : ∀ i j p n, Counts doc i p → Counts doc j n → n.toInt ≤ 0 →
    Computes doc (sliced [a, i, j]) (.error (.type (.sliceCount n)))
  /-- In machine integers no sum overflows, and the items are the same. -/
  machine : items.length < 2 ^ 63 → ∀ j n, Counts doc j n → ∃ w : Window,
    window? (Int64.ofNat items.length) none n = some w ∧ w.Nonneg ∧
      Computes doc (sliced [a, j]) (.ok (.array (w.of items)))
  machineInner : items.length < 2 ^ 63 → ∀ i j p n, Counts doc i p → Counts doc j n →
    0 < n.toInt → ∃ w : Window, window? (Int64.ofNat items.length) (some p) n = some w ∧
      w.Nonneg ∧ Computes doc (sliced [a, i, j]) (.ok (.array (w.of items)))
  /-- The first items and all others make the array. -/
  joined : ∀ i j k m, Counts doc i k → Counts doc j m → 0 ≤ k.toInt → k.toInt ≤ items.length →
    m.toInt = k.toInt - items.length → ∃ front rest,
      Computes doc (sliced [a, i]) (.ok (.array front)) ∧
        Computes doc (sliced [a, j]) (.ok (.array rest)) ∧ front ++ rest = items

section Slices

variable {a i j : Json} {items : List Value} {p n : Int64}
  (ha : Computes doc a (.ok (.array items)))
include ha

theorem computes_takeItems (hj : Counts doc j n) :
    Computes doc (sliced [a, j]) (.ok (.array (Operators.takeItems items n.toInt))) := by
  obtain ⟨v, hv, hwhole⟩ := hj
  rw [← Operators.take_of_whole hwhole]
  exact computes_take ha hv

theorem computes_sliceItems (hi : Counts doc i p) (hj : Counts doc j n) (hn : 0 < n.toInt) :
    Computes doc (sliced [a, i, j])
      (.ok (.array (Operators.sliceItems items p.toInt n.toInt))) := by
  obtain ⟨u, hu, hposition⟩ := hi
  obtain ⟨v, hv, hcount⟩ := hj
  rw [← Operators.slice_of_pos hposition hcount hn]
  exact computes_slice ha hu hv

/-- **Slices of arrays** have the exact bounds, for all arguments that stand for integers. -/
theorem slices_of_computes : Slices doc a items where
  first j n hj hn := by
    obtain ⟨front, rest, hfront, hsplit, hlength⟩ := Operators.takeItems_of_nonneg items hn
    exact ⟨front, rest, hfront ▸ computes_takeItems ha hj, hsplit, hlength⟩
  last j n hj hn := by
    obtain ⟨before, rest, hrest, hsplit, hlength⟩ := Operators.takeItems_of_neg items hn
    exact ⟨before, rest, hrest ▸ computes_takeItems ha hj, hsplit, hlength⟩
  inner i j p n hi hj hn := by
    obtain ⟨before, part, after, hpart, hsplit⟩ := Operators.sliceItems_of_pos items p.toInt hn
    exact ⟨before, part, after, hpart ▸ computes_sliceItems ha hi hj hn, hsplit⟩
  refused i j p n hi hj hn := by
    obtain ⟨u, hu, hposition⟩ := hi
    obtain ⟨v, hv, hcount⟩ := hj
    rw [← Operators.slice_of_nonpos hposition hcount hn]
    exact computes_slice ha hu hv
  machine hlength j n hj := by
    obtain ⟨w, hw, hnonneg, hitems⟩ := Operators.window?_none hlength n
    exact ⟨w, hw, hnonneg, hitems ▸ computes_takeItems ha hj⟩
  machineInner hlength i j p n hi hj hn := by
    obtain ⟨w, hw, hnonneg, hitems⟩ := Operators.window?_some hlength p hn
    exact ⟨w, hw, hnonneg, hitems ▸ computes_sliceItems ha hi hj hn⟩
  joined i j k m hi hj hk hle hm :=
    ⟨_, _, computes_takeItems ha hi, computes_takeItems ha hj,
      Operators.takeItems_append items hk hle hm⟩

end Slices

/-- The double just beyond the machine integers. -/
def beyond : Float := Float.ofBits 0x43E0000000000000

theorem whole_beyond : Whole (.float beyond) Int64.maxValue := by
  have hfinite : Binary64.isFinite beyond = true := by decide
  have hexact : Binary64.scaled beyond = 2 ^ 63 * Binary64.unit := by decide
  exact .float hfinite hexact (by decide)

/-- Three letters as JSON. -/
def letters : Json := .array [.string "a", .string "b", .string "c"]

/-- The last two letters, whatever number of letters is asked for from there on. -/
theorem slices_of_computes_letters :
    Computes .null letters (.ok (.array [.string "a", .string "b", .string "c"])) ∧
      Counts .null (.number (.double beyond)) Int64.maxValue ∧
      Counts .null (.number (.integer (-2))) (-2) ∧
      Computes .null
        (sliced [letters, .number (.integer (-2)), .number (.double beyond)])
        (.ok (.array [.string "b", .string "c"])) ∧
      Computes .null
        (sliced [letters, .number (.double beyond), .number (.integer (-2))])
        (.error (.type (.sliceCount (-2)))) := by
  have hletter (text : String) (h : (readText text : Result Expr) = .ok (literal (.string text))) :
      ofJson (.string text) = .ok (literal (.string text)) := by
    rw [ofJson, read]
    exact h
  have hletters : Computes .null letters
      (.ok (.array [.string "a", .string "b", .string "c"])) := by
    refine ⟨array (["a", "b", "c"].map fun text => literal (.string text)), ?_, rfl⟩
    rw [ofJson, letters, read, readItems_eq_ok (.cons (hletter "a" rfl) (.cons (hletter "b" rfl)
      (.cons (hletter "c" rfl) .nil)))]
    rfl
  have hbeyond : Counts .null (.number (.double beyond)) Int64.maxValue :=
    ⟨.float beyond, computes_number .null _, whole_beyond⟩
  have hminus : Counts .null (.number (.integer (-2))) (-2) :=
    ⟨.int (-2), computes_number .null _, .int (-2)⟩
  have hslices := slices_of_computes hletters
  obtain ⟨before, part, after, hpart, hsplit, hbefore, hlength⟩ :=
    hslices.inner _ _ _ _ hminus hbeyond (by decide)
  refine ⟨hletters, hbeyond, hminus, ?_, hslices.refused _ _ _ _ hbeyond hminus (by decide)⟩
  -- One letter stands before the part, and the part has the other two.
  have hstart : startOf (-2) 3 = 1 := by decide
  have hend : min (startOf (-2) 3 + Int64.maxValue.toInt) 3 = 3 := by decide
  have hone : (before.length : Int) = 1 := hbefore.trans hstart
  have hthree : (before.length + part.length : Int) = 3 := hlength.trans hend
  obtain ⟨b, rfl⟩ := List.length_eq_one_iff.1 (show before.length = 1 by omega)
  obtain ⟨c, d, rfl⟩ := List.length_eq_two.1 (show part.length = 2 by omega)
  simp only [List.cons_append, List.nil_append, List.cons.injEq] at hsplit
  obtain ⟨-, rfl, rfl, -⟩ := hsplit
  exact hpart

end Expr

end DocStore
