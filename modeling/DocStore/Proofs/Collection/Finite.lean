import DocStore.Proofs.Collection.Content

/-!
# Finite numbers

A double that is not finite has no JSON form and would be written as null. Documents never come to
hold one: the numbers of JSON are finite, an integer sum that overflows becomes a finite double, and
a sum of doubles that is not finite is refused.
-/

set_option autoImplicit false

namespace DocStore

namespace Json

mutual

/-- JSON in which every number is finite. -/
def Finite : Json → Prop
  | number n => Binary64.isFinite n.toFloat = true
  | array items => FiniteItems items
  | object fields => FiniteFields fields
  | _ => True

/-- The same of all items of an array. -/
def FiniteItems : List Json → Prop
  | [] => True
  | j :: rest => Finite j ∧ FiniteItems rest

/-- The same of all values of fields. -/
def FiniteFields : List (String × Json) → Prop
  | [] => True
  | (_, j) :: rest => Finite j ∧ FiniteFields rest

end

theorem finiteItems_iff {items : List Json} : FiniteItems items ↔ ∀ j ∈ items, j.Finite := by
  induction items with
  | nil => simp [FiniteItems]
  | cons j rest ih => rw [FiniteItems, ih, List.forall_mem_cons]

theorem finiteFields_iff {fields : List (String × Json)} :
    FiniteFields fields ↔ ∀ e ∈ fields, e.2.Finite := by
  induction fields with
  | nil => simp [FiniteFields]
  | cons e rest ih => rw [FiniteFields, ih, List.forall_mem_cons]

end Json

namespace Value

/-! ## Finite values -/

/-- A scalar that is no infinity and not NaN. -/
def FiniteScalar : Value → Prop
  | float f => Binary64.isFinite f = true
  | _ => True

/-- A value in which every number is finite. -/
def Finite : Value → Prop := Everywhere FiniteScalar fun _ => True

theorem lasting_finite : Lasting FiniteScalar fun _ => True where
  null := trivial
  empty := trivial
  insert _ _ _ := trivial
  erase _ _ := trivial
  int _ := trivial
  float _ hf := hf

theorem conveys_finite : Conveys Json.Finite FiniteScalar fun _ => True where
  items h := Json.finiteItems_iff.1 h
  fields h := Json.finiteFields_iff.1 h
  top {j} h := by
    cases j with
    | number n =>
        rw [ofJson, ofNumber]
        split
        · trivial
        · exact h
    | object fields =>
        rw [ofJson]
        split <;> trivial
    | _ => trivial

/-- A finite number is written as itself. -/
theorem exists_toJson_of_finite {w : Value} (hw : w.Finite) {x : Float} (hx : w.float? = some x) :
    Binary64.isFinite x = true ∧ ∃ n : Json.Number, w.toJson = .number n ∧ n.toFloat = x := by
  cases w with
  | int n =>
      cases hx
      exact ⟨Binary64.isFinite_ofInt64 n, .integer n.toInt, rfl, rfl⟩
  | float f =>
      cases hx
      have hfinite : Binary64.isFinite x = true := hw
      exact ⟨hfinite, .double x, by rw [toJson, if_pos hfinite], rfl⟩
  | _ => cases hx

end Value

/-! ## Collections -/

theorem Document.made_finite : Made Value.Finite fun d => d.toValue.Finite where
  fields h := h
  make id _ h := by
    refine ⟨trivial, ?_, Value.everywhereFields_erase h.2 idField⟩
    cases id <;> trivial

namespace Call

/-- **A run of calls with finite arguments.** Finite documents stay finite. -/
theorem finite_runAll {c : Collection} (hc : ∀ d ∈ c.documents, d.toValue.Finite)
    {calls : List (Call × PatternCache)} (hcalls : ∀ e ∈ calls, e.1.Arguments Json.Finite) :
    ∀ d ∈ (runAll c calls).documents, d.toValue.Finite :=
  made_runAll Value.lasting_finite Value.conveys_finite Document.made_finite hc hcalls

/-- **No number is ever lost to null.** Whatever calls with finite JSON arguments are made on a
collection that starts without documents: every number at any depth of any document is finite, and
is written as itself. -/
theorem numbers_runAll {c : Collection} (hc : c.documents = [])
    {calls : List (Call × PatternCache)} (hcalls : ∀ e ∈ calls, e.1.Arguments Json.Finite) :
    ∀ d ∈ (runAll c calls).documents, ∀ w : Value, w.Inside d.toValue →
      ∀ x : Float, w.float? = some x →
        Binary64.isFinite x = true ∧ ∃ n : Json.Number, w.toJson = .number n ∧ n.toFloat = x := by
  intro d hd w hw x hx
  have hempty : ∀ d ∈ c.documents, d.toValue.Finite := by
    rw [hc]
    exact List.forall_mem_nil _
  exact Value.exists_toJson_of_finite (hw.everywhere (finite_runAll hempty hcalls d hd)) hx

/-- A counter at the greatest machine integer, which is then increased by one. -/
def countCalls : List (Call × PatternCache) :=
  [(.insertOne (.object [("_id", .number (.integer 1)),
      ("count", .object [("total", .number (.integer 9223372036854775807))])]), .empty),
    (.updateOne (.object [("_id", .number (.integer 1))])
      (.object [("$inc", .object [("count.total", .number (.integer 1))])]) false, .empty)]

theorem finite_countCalls : ∀ e ∈ countCalls, e.1.Arguments Json.Finite := by
  have hone : Binary64.isFinite (Binary64.ofInt 1) = true := Binary64.isFinite_ofInt (by decide)
  have htop : Binary64.isFinite (Binary64.ofInt 9223372036854775807) = true :=
    Binary64.isFinite_ofInt (by decide)
  simp [countCalls, Arguments, Json.Finite, Json.FiniteFields, Json.Number.toFloat, hone, htop]

/-- The sum is no machine integer any more, but a finite double. -/
theorem numbers_runAll_count :
    (Collection.empty "pets" none {} (.sequential 0)).documents = [] ∧
    (∀ e ∈ countCalls, e.1.Arguments Json.Finite) ∧
    ∃ d ∈ (runAll (.empty "pets" none {} (.sequential 0)) countCalls).documents,
      ∃ x : Float, (Value.float x).Inside d.toValue ∧ Binary64.isFinite x = true ∧
        ∃ n : Json.Number, (Value.float x).toJson = .number n ∧ n.toFloat = x := by
  have hdocuments : (runAll (.empty "pets" none {} (.sequential 0)) countCalls).documents =
      [.make (.int 1) [("count", .object [("total",
        .float (Binary64.ofInt64 9223372036854775807 + Binary64.ofInt64 1))])]] := rfl
  have hmem := hdocuments ▸ List.mem_cons_self
  have hinside : (Value.float (Binary64.ofInt64 9223372036854775807 + Binary64.ofInt64 1)).Inside
      (Document.make (.int 1) [("count", .object [("total",
        .float (Binary64.ofInt64 9223372036854775807 + Binary64.ofInt64 1))])]).toValue :=
    .field (List.mem_cons_of_mem _ List.mem_cons_self) (.field List.mem_cons_self .here)
  exact ⟨rfl, finite_countCalls, _, hmem, _, hinside,
    numbers_runAll rfl finite_countCalls _ hmem _ hinside _ rfl⟩

end Call

end DocStore
