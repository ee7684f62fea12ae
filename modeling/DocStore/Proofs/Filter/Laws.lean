import DocStore.Proofs.Filter.Accepted
import DocStore.Proofs.Value.Apart
import DocStore.Proofs.Value.Edit

/-!
# Laws of filters

The operators of filters are tied to each other: `$lte` is `$lt` or `$eq`, `$in` is `$eq` with one
of several values, `$ne` and `$nin` are the opposites of `$eq` and `$in` where the field exists,
`$nor` is the opposite of `$or`, and several operators on a field all hold. The laws are stated for
filters in JSON: `Filter.laws_of_distinct`.
-/

set_option autoImplicit false

namespace DocStore

namespace Filter

variable {m : Fields Value}

/-! ## The laws -/

/-- The laws of the operators on a path, for an object with the given fields. -/
structure OperatorLaws (m : Fields Value) (path : String) : Prop where
  /-- Comparisons are accepted with any operand. -/
  comparison : ∀ op v, (Condition.comparison? op).isSome = true →
    Accepted (onField path [(op, v)])
  /-- Membership is accepted with any list. -/
  membership : ∀ op vs, (Condition.membership? op).isSome = true →
    Accepted (onField path [(op, .array vs)])
  existing : Accepted (onField path [("$exists", .bool true)])
  /-- A scalar is at most as great iff it is less or equal. -/
  lte : ∀ v, (Value.ofJson v).isContainer = false →
    (Passes m (onField path [("$lte", v)]) ↔
      Passes m (onField path [("$lt", v)]) ∨ Passes m (onField path [("$eq", v)]))
  gte : ∀ v, (Value.ofJson v).isContainer = false →
    (Passes m (onField path [("$gte", v)]) ↔
      Passes m (onField path [("$gt", v)]) ∨ Passes m (onField path [("$eq", v)]))
  /-- One of several values is there iff there is one that is. -/
  oneOf : ∀ vs, (∀ v ∈ vs, v.Distinct) →
    (Passes m (onField path [("$in", .array vs)]) ↔
      ∃ v ∈ vs, Passes m (onField path [("$eq", v)]))
  /-- A field differs from a value iff it exists and does not equal it. -/
  ne : ∀ v, Passes m (onField path [("$ne", v)]) ↔
    Passes m (onField path [("$exists", .bool true)]) ∧ ¬ Passes m (onField path [("$eq", v)])
  noneOf : ∀ vs, Passes m (onField path [("$nin", .array vs)]) ↔
    Passes m (onField path [("$exists", .bool true)]) ∧
      ¬ Passes m (onField path [("$in", .array vs)])
  /-- Several operators that are accepted together are accepted alone, and all of them hold. -/
  several : ∀ ops, isOperatorMap ops = true → Accepted (onField path ops) →
    (∀ e ∈ ops, e.1 ≠ "$options" → Accepted (onField path (Condition.alone ops e))) ∧
      (Passes m (onField path ops) ↔
        ∀ e ∈ ops, e.1 ≠ "$options" → Passes m (onField path (Condition.alone ops e)))

/-- The laws of filters in JSON, for an object with the given fields. -/
structure Laws (m : Fields Value) : Prop where
  operators : ∀ path, Segments.isFieldPath path = true → OperatorLaws m path
  accepted_nor : ∀ fs, Accepted (combined "$nor" fs) ↔ Accepted (combined "$or" fs)
  /-- None of several filters is passed iff it is not so that one of them is. -/
  nor : ∀ fs, Accepted (combined "$nor" fs) →
    (Passes m (combined "$nor" fs) ↔ ¬ Passes m (combined "$or" fs))

/-- In an object without repeated names, equality with values from JSON can be read both ways. -/
theorem equal_comm_of_mem_candidates {m : Fields Value} (hm : (Value.object m).Distinct)
    (path : String) {vs : List Json} (hvs : ∀ v ∈ vs, v.Distinct) :
    ∀ c ∈ (Value.fieldTerminals m path).flatMap Condition.candidates,
      ∀ v ∈ Value.ofJsonItems vs, Value.equal v c = Value.equal c v := by
  intro c hc v hv
  have hcDistinct : c.Distinct := by
    obtain ⟨t, ht, hc⟩ := List.mem_flatMap.1 hc
    rw [Value.fieldTerminals_eq] at ht
    have htDistinct : t.Distinct := hm.reach t ht
    rcases List.mem_cons.1 hc with rfl | hc
    · exact htDistinct
    · cases t with
      | array items => exact Value.everywhereItems_iff.1 htDistinct c hc
      | _ => cases hc
  have hvDistinct : v.Distinct := by
    rw [Value.ofJsonItems_eq_map] at hv
    obtain ⟨j, hj, rfl⟩ := List.mem_map.1 hv
    exact (Value.regular_ofJson j (hvs j hj)).distinct
  exact Bool.eq_iff_iff.2
    ⟨Value.equal_symm hvDistinct hcDistinct, Value.equal_symm hcDistinct hvDistinct⟩

theorem operatorLaws {m : Fields Value} (hm : (Value.object m).Distinct) {path : String}
    (hpath : Segments.isFieldPath path = true) : OperatorLaws m path := by
  have hcompare (op : String) {make : Value → Condition}
      (h : Condition.comparison? op = some make) (v : Json) := accepted_comparison hpath h v
  have hmember (op : String) {make : List Value → Condition}
      (h : Condition.membership? op = some make) (vs : List Json) :=
    accepted_membership hpath h vs
  have heq (v : Json) := (hcompare "$eq" rfl v).2 m
  have hexists := (accepted_exists hpath true).2 m
  refine
    { comparison := fun op v h => ?_
      membership := fun op vs h => ?_
      existing := (accepted_exists hpath true).1
      lte := fun v hv => ?_
      gte := fun v hv => ?_
      oneOf := fun vs hvs => ?_
      ne := fun v => ?_
      noneOf := fun vs => ?_
      several := fun ops hops h => ?_ }
  · obtain ⟨make, hmake⟩ := Option.isSome_iff_exists.1 h
    exact (hcompare op hmake v).1
  · obtain ⟨make, hmake⟩ := Option.isSome_iff_exists.1 h
    exact (hmember op hmake vs).1
  · rw [(hcompare "$lte" rfl v).2, (hcompare "$lt" rfl v).2, heq,
      Condition.holds_lte hv, Bool.or_eq_true]
  · rw [(hcompare "$gte" rfl v).2, (hcompare "$gt" rfl v).2, heq,
      Condition.holds_gte hv, Bool.or_eq_true]
  · rw [(hmember "$in" rfl vs).2,
      Condition.holds_oneOf (equal_comm_of_mem_candidates hm path hvs),
      Value.ofJsonItems_eq_map, List.any_map, List.any_eq_true]
    simp only [heq, Function.comp_apply]
  · rw [(hcompare "$ne" rfl v).2, hexists, heq, Condition.holds_ne]
    simp
  · rw [(hmember "$nin" rfl vs).2, (hmember "$in" rfl vs).2, hexists,
      Condition.holds_noneOf]
    simp
  · obtain ⟨haccepted, hpasses⟩ := passes_several hpath hops h
    exact ⟨haccepted, hpasses m⟩

/-- **The operators of filters obey their laws** in every object that has no name twice, whatever
patterns were compiled before. -/
theorem laws_of_distinct (m : Fields Value) (hm : (Value.object m).Distinct) : Laws m where
  operators path hpath := operatorLaws hm hpath
  accepted_nor fs := by
    have hnor : combinator? "$nor" = some nor := rfl
    have hor : combinator? "$or" = some or := rfl
    rw [accepted_combined_iff hnor, accepted_combined_iff hor]
  nor fs h := passes_nor_iff h m

theorem laws_of_distinct_tags :
    let rex : Fields Value :=
      [("_id", .int 1), ("tags", .array [.string "tame", .null, .float 3.0])]
    (Value.object rex).Distinct ∧
      Passes rex (onField "tags" [("$lte", .ofInt 3)]) ∧
      ¬ Passes rex (onField "tags" [("$nin", .array [.bool true, .string "tame"])]) := by
  intro rex
  have hrex : (Value.object rex).Distinct :=
    ⟨by decide, trivial, ⟨trivial, trivial, trivial, trivial⟩, trivial⟩
  have hlaws := (laws_of_distinct rex hrex).operators "tags" (by decide)
  have hequal {v : Json}
      (h : (Condition.eq (.ofJson v)).holds (Value.fieldTerminals rex "tags") = true) :
      Passes rex (onField "tags" [("$eq", v)]) :=
    ((accepted_comparison (by decide) rfl v).2 rex).2 h
  -- The tag is a double, and the bound an integer that equals it.
  have hthree : Passes rex (onField "tags" [("$eq", .ofInt 3)]) := hequal (by decide +kernel)
  have htame : Passes rex (onField "tags" [("$eq", .string "tame")]) := hequal (by decide +kernel)
  have hin : Passes rex (onField "tags" [("$in", .array [.bool true, .string "tame"])]) :=
    (hlaws.oneOf _ (by simp [Json.Distinct])).2 ⟨.string "tame", by simp, htame⟩
  exact ⟨hrex, (hlaws.lte (.ofInt 3) (by cbv)).2 (.inr hthree),
    fun h => ((hlaws.noneOf _).1 h).2 hin⟩

end Filter

end DocStore
