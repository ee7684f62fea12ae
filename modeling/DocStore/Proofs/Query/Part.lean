import DocStore.Proofs.Value.Apart
import DocStore.Proofs.Value.Regular
import DocStore.Query.Projection

/-!
# Parts of a value

The part of a value along a path reaches there what the value reaches, and nothing at paths that lie
apart. Merging a part into what was kept before leaves other paths as they were, unless they share
an array on the way: the array of the part takes the place of the one before.
-/

set_option autoImplicit false

namespace DocStore

open Segments (Apart)

namespace Segments

/-- None of the segments is an index. -/
def Names (segments : List String) : Prop := ∀ s ∈ segments, index? s = none

instance (segments : List String) : Decidable (Names segments) :=
  inferInstanceAs (Decidable (∀ s ∈ segments, index? s = none))

theorem names_cons {segment : String} {rest : List String} :
    Names (segment :: rest) ↔ index? segment = none ∧ Names rest := List.forall_mem_cons

end Segments

open Segments (Names)

namespace Value

/-- Two chains of segments share a beginning that leads to an array. -/
def SharesArray (s t : List String) (v : Value) : Prop :=
  ∃ c items, c <+: s ∧ c <+: t ∧ descend? c v = some (array items)

theorem SharesArray.symm {s t : List String} {v : Value} (h : SharesArray s t v) :
    SharesArray t s v := by
  obtain ⟨c, items, hs, ht, hdescend⟩ := h
  exact ⟨c, items, ht, hs, hdescend⟩

theorem sharesArray_array (s t : List String) (items : List Value) :
    SharesArray s t (array items) := ⟨[], items, List.nil_prefix, List.nil_prefix, rfl⟩

theorem sharesArray_object_iff {segment other : String} {s t : List String} {m : Fields Value} :
    SharesArray (segment :: s) (other :: t) (object m) ↔
      segment = other ∧ ∃ w, Fields.get? m segment = some w ∧ SharesArray s t w := by
  constructor
  · rintro ⟨c, items, hs, ht, hdescend⟩
    cases c with
    | nil => cases hdescend
    | cons name c =>
        obtain ⟨rfl, hs'⟩ := List.cons_prefix_cons.1 hs
        obtain ⟨rfl, ht'⟩ := List.cons_prefix_cons.1 ht
        obtain ⟨w, hw, hdescend⟩ := Option.bind_eq_some_iff.1 hdescend
        exact ⟨rfl, w, hw, c, items, hs', ht', hdescend⟩
  · rintro ⟨rfl, w, hw, c, items, hs, ht, hdescend⟩
    refine ⟨segment :: c, items, List.cons_prefix_cons.2 ⟨rfl, hs⟩,
      List.cons_prefix_cons.2 ⟨rfl, ht⟩, ?_⟩
    exact Option.bind_eq_some_iff.2 ⟨w, hw, hdescend⟩

/-! ## What a part reaches -/

theorem reach_of_get? {m : Fields Value} {segment : String} {w : Value}
    (h : Fields.get? m segment = some w) (rest : List String) :
    reach (segment :: rest) (object m) = reach rest w := by
  rw [reach_object, h, Option.toList_some, List.flatMap_singleton]

theorem childrenOfItems_eq (segment : String) (items : List Value) :
    childrenOfItems segment items = items.flatMap (children segment) := by
  induction items with
  | nil => rfl
  | cons v rest ih => rw [childrenOfItems, ih, List.flatMap_cons]

end Value

namespace Projection

open Value (reach children childrenOfItems descend? SharesArray EverywhereFields DistinctNames)

variable {segment : String} {next : Value → Option Value}

mutual

/-- The children of a part are the parts of the children. -/
theorem children_part (hname : Segments.index? segment = none) : (v : Value) →
    (part segment next v).toList.flatMap (children segment) =
      (children segment v).flatMap fun w => (next w).toList
  | .object m => by
    rw [part, children]
    cases hget : Fields.get? m segment with
    | none => rfl
    | some w => cases hnext : next w <;> simp [hnext, children, Fields.get?]
  | .array items => by
    simp only [part, children, hname, Option.toList_some, List.flatMap_singleton]
    exact children_partItems hname items
  | .null => rfl
  | .bool _ => rfl
  | .int _ => rfl
  | .float _ => rfl
  | .string _ => rfl
  | .date _ => rfl

theorem children_partItems (hname : Segments.index? segment = none) : (items : List Value) →
    childrenOfItems segment (partItems segment next items) =
      (childrenOfItems segment items).flatMap fun w => (next w).toList
  | [] => rfl
  | v :: rest => by
    rw [partItems, Value.childrenOfItems_eq, List.flatMap_append, children_part hname v,
      ← Value.childrenOfItems_eq, children_partItems hname rest, childrenOfItems,
      List.flatMap_append]

end

mutual

/-- A part has no children of other names. -/
theorem children_part_of_ne {other : String} (hname : Segments.index? other = none)
    (hne : other ≠ segment) : (v : Value) →
    (part segment next v).toList.flatMap (children other) = []
  | .object m => by
    rw [part]
    cases (Fields.get? m segment).bind next with
    | none => rfl
    | some w => simp [children, Fields.get?, hne.symm]
  | .array items => by
    simp only [part, children, hname, Option.toList_some, List.flatMap_singleton]
    exact children_partItems_of_ne hname hne items
  | .null => rfl
  | .bool _ => rfl
  | .int _ => rfl
  | .float _ => rfl
  | .string _ => rfl
  | .date _ => rfl

theorem children_partItems_of_ne {other : String} (hname : Segments.index? other = none)
    (hne : other ≠ segment) : (items : List Value) →
    childrenOfItems other (partItems segment next items) = []
  | [] => rfl
  | v :: rest => by
    rw [partItems, Value.childrenOfItems_eq, List.flatMap_append, children_part_of_ne hname hne v,
      ← Value.childrenOfItems_eq, children_partItems_of_ne hname hne rest, List.append_nil]

end

/-- **A part reaches what the value reaches** along its path. -/
theorem reach_partAlong {s : List String} (hs : Names s) (v : Value) :
    (partAlong s v).toList.flatMap (reach s) = reach s v := by
  induction s generalizing v with
  | nil => rfl
  | cons segment rest ih =>
      obtain ⟨hname, hrest⟩ := Segments.names_cons.1 hs
      calc (part segment (partAlong rest) v).toList.flatMap
            (fun u => (children segment u).flatMap (reach rest))
          = ((part segment (partAlong rest) v).toList.flatMap (children segment)).flatMap
              (reach rest) := List.flatMap_assoc.symm
        _ = (children segment v).flatMap fun w =>
              (partAlong rest w).toList.flatMap (reach rest) := by
            rw [children_part hname, List.flatMap_assoc]
        _ = (children segment v).flatMap (reach rest) := by
            simp only [ih hrest]

/-- **A part reaches nothing** along paths that lie apart. -/
theorem reach_partAlong_of_apart {s t : List String} (ht : Names t) (hapart : Apart s t)
    (v : Value) : (partAlong s v).toList.flatMap (reach t) = [] := by
  induction s generalizing t v with
  | nil => exact absurd rfl hapart.symm.ne_nil
  | cons segment s ih =>
      cases t with
      | nil => exact absurd rfl hapart.ne_nil
      | cons other t =>
          obtain ⟨hname, ht⟩ := Segments.names_cons.1 ht
          have hchildren : (partAlong (segment :: s) v).toList.flatMap (reach (other :: t)) =
              ((part segment (partAlong s) v).toList.flatMap (children other)).flatMap (reach t) :=
            List.flatMap_assoc.symm
          rw [hchildren]
          by_cases hne : other = segment
          · subst hne
            rw [children_part hname, List.flatMap_assoc]
            simp [ih ht hapart.of_cons]
          · rw [children_part_of_ne hname hne, List.flatMap_nil]

/-- There is a part along a path with an array on the way. -/
theorem exists_partAlong {c s : List String} {v : Value} {items : List Value}
    (h : descend? c v = some (.array items)) (hbegin : c <+: s) :
    ∃ u, partAlong s v = some u := by
  induction s generalizing c v with
  | nil => exact ⟨v, rfl⟩
  | cons segment rest ih =>
      cases c with
      | nil =>
          cases h
          exact ⟨_, rfl⟩
      | cons name c =>
          obtain ⟨rfl, hrest⟩ := List.cons_prefix_cons.1 hbegin
          obtain ⟨w, hw, hbelow⟩ := Option.bind_eq_some_iff.1 h
          cases v with
          | object m =>
              obtain ⟨u, hu⟩ := ih hbelow hrest
              have hget : Fields.get? m name = some w := hw
              exact ⟨.object [(name, u)], by simp [partAlong, part, hget, hu]⟩
          | array items => exact ⟨_, rfl⟩
          | _ => cases hw

/-! ## Merging -/

/-- Wherever both values have something at a chain of names, and the second has an object there,
so has the first. -/
inductive Follows : Value → Value → Prop
  | object {ws vs : Fields Value}
      (h : ∀ name w v, Fields.get? ws name = some w → Fields.get? vs name = some v → Follows w v) :
      Follows (.object ws) (.object vs)
  | other {w v : Value} (h : ∀ vs, v ≠ .object vs) : Follows w v

mutual

theorem follows_self : (v : Value) → Follows v v
  | .object m => .object fun name w v hw hv => by
    cases hw.symm.trans hv
    exact follows_self_of_mem m _ (Fields.mem_of_get? hw)
  | .array _ => .other nofun
  | .null => .other nofun
  | .bool _ => .other nofun
  | .int _ => .other nofun
  | .float _ => .other nofun
  | .string _ => .other nofun
  | .date _ => .other nofun

theorem follows_self_of_mem : (fields : List (String × Value)) → ∀ e ∈ fields, Follows e.2 e.2
  | [] => List.forall_mem_nil _
  | (_, v) :: rest => List.forall_mem_cons.2 ⟨follows_self v, follows_self_of_mem rest⟩

end

theorem mergeValue_none (v : Value) : mergeValue none v = v := by
  cases v <;> rw [mergeValue] <;> nofun

theorem mergeValue_array (old : Option Value) (items : List Value) :
    mergeValue old (.array items) = .array items := by
  rw [mergeValue]
  nofun

mutual

/-- Merging a value into itself changes nothing. -/
theorem mergeValue_self : (v : Value) → v.Distinct → mergeValue (some v) v = v
  | .object m, h => by
    rw [mergeValue, mergeFields_self m m h.2 fun e he => Fields.get?_of_mem h.1 he]
  | .array items, _ => mergeValue_array _ items
  | .null, _ => by rw [mergeValue]; nofun
  | .bool _, _ => by rw [mergeValue]; nofun
  | .int _, _ => by rw [mergeValue]; nofun
  | .float _, _ => by rw [mergeValue]; nofun
  | .string _, _ => by rw [mergeValue]; nofun
  | .date _, _ => by rw [mergeValue]; nofun

theorem mergeFields_self (existing : Fields Value) : (incoming : List (String × Value)) →
    EverywhereFields (fun _ => True) DistinctNames incoming →
    (∀ e ∈ incoming, Fields.get? existing e.1 = some e.2) →
    mergeFields existing incoming = existing
  | [], _, _ => by rw [mergeFields]
  | (k, v) :: rest, h, hmem => by
    obtain ⟨hget, hrest⟩ := List.forall_mem_cons.1 hmem
    rw [mergeFields, hget, mergeValue_self v h.1, Fields.insert_of_get? hget,
      mergeFields_self existing rest h.2 hrest]

end

/-! ## Merging a part -/

theorem Follows.field {ws vs : Fields Value} (h : Follows (.object ws) (.object vs)) {name : String}
    {w v : Value} (hw : Fields.get? ws name = some w) (hv : Fields.get? vs name = some v) :
    Follows w v := by
  cases h with
  | object h => exact h name w v hw hv
  | other h => exact absurd rfl (h vs)

/-- The fields of what was kept before, if it is an object. -/
def oldFields : Option Value → Fields Value
  | some (.object m) => m
  | _ => []

theorem mergeValue_singleton (old : Option Value) (name : String) (u : Value) :
    mergeValue old (.object [(name, u)]) = .object (Fields.insert (oldFields old) name
      (mergeValue (Fields.get? (oldFields old) name) u)) := by
  unfold oldFields
  split
  · rw [mergeValue, mergeFields, mergeFields]
  · rename_i hold
    rw [mergeValue, Fields.get?_nil, mergeValue_none, Fields.insert]
    exact hold

variable {s : List String} {v u : Value} {vs : Fields Value} {old : Option Value}

/-- What was kept before in the place of an object is an object or nothing. -/
theorem follows_oldFields (h : ∀ w, old = some w → Follows w (.object vs)) :
    Follows (.object (oldFields old)) (.object vs) ∧ ∀ name rest,
      old.toList.flatMap (reach (name :: rest)) =
        reach (name :: rest) (.object (oldFields old)) := by
  cases old with
  | none => exact ⟨.object nofun, fun _ _ => rfl⟩
  | some w =>
      cases h w rfl with
      | object hfields =>
          exact ⟨.object hfields, fun name rest => List.flatMap_singleton (reach (name :: rest)) _⟩
      | other hother => exact absurd rfl (hother vs)

/-- A part has one field more than the part below, or it is an array. -/
theorem partAlong_cons_cases {segment : String} {rest : List String}
    (hu : partAlong (segment :: rest) v = some u) :
    (∃ items parts, v = .array items ∧ u = .array parts) ∨
      ∃ vs w below, v = .object vs ∧ Fields.get? vs segment = some w ∧
        partAlong rest w = some below ∧ u = .object [(segment, below)] := by
  cases v with
  | object vs =>
      obtain ⟨below, hbelow, rfl⟩ := Option.map_eq_some_iff.1 hu
      obtain ⟨w, hw, hbelow⟩ := Option.bind_eq_some_iff.1 hbelow
      exact .inr ⟨vs, w, below, rfl, hw, hbelow, rfl⟩
  | array items =>
      cases hu
      exact .inl ⟨items, _, rfl, rfl⟩
  | _ => cases hu

/-- **A merged part reaches what the value reaches** along its path, if that was kept before as a
whole or not at all. There are still objects where the value has them. -/
theorem reach_mergeValue (hs : Names s) (hv : v.Distinct)
    (hold : ∀ w, old = some w → Follows w v) (hu : partAlong s v = some u)
    (hready : old.toList.flatMap (reach s) = [] ∨ old.toList.flatMap (reach s) = reach s v) :
    reach s (mergeValue old u) = reach s v ∧ Follows (mergeValue old u) v := by
  induction s generalizing v u old with
  | nil =>
      cases hu
      have hsame : mergeValue old v = v := by
        cases old with
        | none => exact mergeValue_none v
        | some w =>
            obtain rfl : w = v := by simpa [reach] using hready
            exact mergeValue_self w hv
      rw [hsame]
      exact ⟨rfl, follows_self v⟩
  | cons segment rest ih =>
      rcases partAlong_cons_cases hu with ⟨items, parts, rfl, rfl⟩ |
        ⟨vs, w, below, rfl, hw, hbelow, rfl⟩
      · -- An array takes the place of what was kept before, whatever that was.
        have hpart := reach_partAlong hs (.array items)
        rw [hu, Option.toList_some, List.flatMap_singleton] at hpart
        rw [mergeValue_array, hpart]
        exact ⟨rfl, .other nofun⟩
      · -- In an object the merge goes on in the field of the first segment.
        obtain ⟨hfields, hreach⟩ := follows_oldFields hold
        rw [hreach, Value.reach_object, Value.reach_of_get? hw] at hready
        obtain ⟨hself, hfollows⟩ := ih (Segments.names_cons.1 hs).2 (Value.Everywhere.field hv.2 hw)
          (fun w' hw' => hfields.field hw' hw) hbelow hready
        rw [mergeValue_singleton, Value.reach_of_get? (Fields.get?_insert_self _ _ _),
          Value.reach_of_get? hw]
        refine ⟨hself, .object fun name w' v' hw' hv' => ?_⟩
        by_cases hne : name = segment
        · subst hne
          cases hw.symm.trans hv'
          cases (Fields.get?_insert_self _ _ _).symm.trans hw'
          exact hfollows
        · rw [Fields.get?_insert_of_ne _ _ hne] at hw'
          exact hfields.field hw' hv'

/-- **A merged part changes nothing at paths that lie apart**, unless they share an array: then
nothing is left of them. -/
theorem reach_mergeValue_of_apart {t : List String} (ht : Names t) (hapart : Apart s t)
    (hold : ∀ w, old = some w → Follows w v) (hu : partAlong s v = some u) :
    (SharesArray s t v → reach t (mergeValue old u) = []) ∧
      (¬ SharesArray s t v → reach t (mergeValue old u) = old.toList.flatMap (reach t)) := by
  induction s generalizing t v u old with
  | nil => exact absurd rfl hapart.symm.ne_nil
  | cons segment s ih =>
      cases t with
      | nil => exact absurd rfl hapart.ne_nil
      | cons other t =>
          rcases partAlong_cons_cases hu with ⟨items, parts, rfl, rfl⟩ |
            ⟨vs, w, below, rfl, hw, hbelow, rfl⟩
          · have hpart := reach_partAlong_of_apart ht hapart (.array items)
            rw [hu, Option.toList_some, List.flatMap_singleton] at hpart
            rw [mergeValue_array, hpart]
            exact ⟨fun _ => rfl, fun h => absurd (Value.sharesArray_array _ _ items) h⟩
          · obtain ⟨hfields, hreach⟩ := follows_oldFields hold
            rw [mergeValue_singleton, hreach, Value.sharesArray_object_iff]
            by_cases hne : other = segment
            · subst hne
              have hnext := ih (Segments.names_cons.1 ht).2 hapart.of_cons
                (fun w' hw' => hfields.field hw' hw) hbelow
              rw [Value.reach_of_get? (Fields.get?_insert_self _ _ _), Value.reach_object]
              simpa [hw] using hnext
            · rw [Value.reach_object, Value.reach_object, Fields.get?_insert_of_ne _ _ hne]
              exact ⟨fun h => absurd h.1.symm hne, fun _ => rfl⟩

end Projection

end DocStore
