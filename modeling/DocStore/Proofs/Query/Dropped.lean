import DocStore.Proofs.Query.Part
import DocStore.Proofs.Value.Removed

/-!
# What a projection leaves out

Paths are removed one after another, and a removal goes through objects only. So nothing can be read
any more at a path that is left out, unless it reaches something through an array and no beginning
of it is removed: `Projection.terminals_dropped_iff`.
-/

set_option autoImplicit false

namespace DocStore

open Segments (Names)

namespace Value

variable {s t : List String} {v : Value}

/-! ## What can be read -/

variable {segment : String} {next : Value → Option Value}

mutual

/-- Nothing is gathered iff nothing is found in the children. -/
theorem gather_eq_none_iff : (v : Value) →
    (gather segment next v = none ↔ ∀ w ∈ children segment v, next w = none)
  | object m => by simp [gather, children]
  | array items => by
    cases hindex : Segments.index? segment with
    | some i => simp [gather, children, hindex]
    | none =>
        simp only [gather, children, hindex]
        rw [← gatherItems_eq_nil_iff items]
        cases gatherItems segment next items <;> simp
  | null => by simp [gather, children]
  | bool _ => by simp [gather, children]
  | int _ => by simp [gather, children]
  | float _ => by simp [gather, children]
  | string _ => by simp [gather, children]
  | date _ => by simp [gather, children]

theorem gatherItems_eq_nil_iff : (items : List Value) →
    (gatherItems segment next items = [] ↔ ∀ w ∈ childrenOfItems segment items, next w = none)
  | [] => by simp [gatherItems, childrenOfItems]
  | v :: rest => by
    rw [gatherItems, childrenOfItems, List.append_eq_nil_iff, Option.toList_eq_nil_iff,
      gather_eq_none_iff v, gatherItems_eq_nil_iff rest, List.forall_mem_append]

end

/-- **A path has a value iff it reaches something.** -/
theorem resolve?_eq_none_iff (v : Value) (path : String) :
    resolve? v path = none ↔ terminals v path = [] := by
  rw [resolve?, terminals]
  induction Segments.ofPath path generalizing v with
  | nil => simp [resolveSegments?, reach]
  | cons segment rest ih =>
      rw [resolveSegments?, reach, gather_eq_none_iff, List.flatMap_eq_nil_iff]
      exact forall₂_congr fun w _ => ih w

/-! ## Arrays on the way -/

/-- An array lies on the way of a chain of segments, before its end. -/
def CrossesArray (s : List String) (v : Value) : Prop :=
  ∃ c items, c <+: s ∧ c ≠ s ∧ descend? c v = some (array items)

theorem not_crossesArray_nil (v : Value) : ¬ CrossesArray [] v := by
  rintro ⟨c, items, hpart, hne, -⟩
  exact hne (List.prefix_nil.1 hpart)

theorem crossesArray_array (segment : String) (rest : List String) (items : List Value) :
    CrossesArray (segment :: rest) (array items) :=
  ⟨[], items, List.nil_prefix, (List.cons_ne_nil _ _).symm, rfl⟩

theorem crossesArray_object_iff {segment : String} {rest : List String} {m : Fields Value} :
    CrossesArray (segment :: rest) (object m) ↔
      ∃ w, Fields.get? m segment = some w ∧ CrossesArray rest w := by
  constructor
  · rintro ⟨c, items, hpart, hne, hdescend⟩
    cases c with
    | nil => cases hdescend
    | cons name c =>
        obtain ⟨rfl, hrest⟩ := List.cons_prefix_cons.1 hpart
        obtain ⟨w, hw, hbelow⟩ := Option.bind_eq_some_iff.1 hdescend
        exact ⟨w, hw, c, items, hrest, fun h => hne (congrArg _ h), hbelow⟩
  · rintro ⟨w, hw, c, items, hrest, hne, hbelow⟩
    refine ⟨segment :: c, items, List.cons_prefix_cons.2 ⟨rfl, hrest⟩,
      fun h => hne (List.cons.inj h).2, ?_⟩
    exact Option.bind_eq_some_iff.2 ⟨w, hw, hbelow⟩

/-! ## Removing -/

/-- A value without what lies at the end of a chain of segments. -/
def without (s : List String) (v : Value) : Value := (remove? s v).elim v (·.1)

/-- A removal in an object changes its first field only: that is erased, or what it holds goes on
without the rest of the chain. -/
theorem exists_without_object (segment : String) (rest : List String) {m : Fields Value}
    (hkeys : DistinctNames m) :
    ∃ m', without (segment :: rest) (object m) = object m' ∧
      (∀ other, other ≠ segment → Fields.get? m' other = Fields.get? m other) ∧
      Fields.get? m' segment =
        if rest = [] then none else (Fields.get? m segment).map (without rest) := by
  cases hget : Fields.get? m segment with
  | none =>
      have hsame : without (segment :: rest) (object m) = object m := by
        cases rest <;> simp [without, remove?, hget]
      exact ⟨m, hsame, fun _ _ => rfl, by simp [hget]⟩
  | some w =>
      cases rest with
      | nil =>
          refine ⟨Fields.erase m segment, by simp [without, remove?, hget], fun other hne =>
            Fields.get?_erase_of_ne m hne, ?_⟩
          rw [Fields.get?_erase_self hkeys, if_pos rfl]
      | cons next rest =>
          refine ⟨Fields.insert m segment (without (next :: rest) w), ?_, fun other hne =>
            Fields.get?_insert_of_ne m _ hne, by simp [Fields.get?_insert_self]⟩
          cases hremove : remove? (next :: rest) w with
          | none => simp [without, remove?, hget, hremove, Fields.insert_of_get? hget]
          | some result => simp [without, remove?, hget, hremove]

/-- What is no object is left as it is. -/
theorem without_of_not_object {segment : String} {rest : List String}
    (hname : Segments.index? segment = none) (hv : ∀ m, v ≠ object m) :
    without (segment :: rest) v = v := by
  cases v with
  | object m => exact absurd rfl (hv m)
  | array items => cases rest <;> simp [without, remove?, hname]
  | _ => cases rest <;> rfl

/-- **What a removal makes unreadable** are the chains of segments that the removed one begins, if
it goes through objects only. -/
theorem reach_without_eq_nil_iff (hne : s ≠ []) (hs : Names s) (hv : v.Distinct) :
    reach t (without s v) = [] ↔ reach t v = [] ∨ s <+: t ∧ ¬ CrossesArray s v := by
  induction s generalizing t v with
  | nil => exact absurd rfl hne
  | cons segment rest ih =>
      obtain ⟨hname, hrest⟩ := Segments.names_cons.1 hs
      cases v with
      | object m =>
          obtain ⟨m', hwithout, hothers, hself⟩ := exists_without_object segment rest hv.1
          rw [hwithout]
          cases t with
          | nil => simp [reach]
          | cons other t =>
              rw [reach_object, reach_object]
              by_cases hother : other = segment
              · subst hother
                rw [hself, crossesArray_object_iff, List.cons_prefix_cons]
                by_cases hend : rest = []
                · simp [hend, not_crossesArray_nil]
                · cases hget : Fields.get? m other with
                  | none => simp
                  | some w =>
                      simpa [hend] using ih (t := t) hend hrest (Everywhere.field hv.2 hget)
              · rw [hothers other hother]
                simp [List.cons_prefix_cons, Ne.symm hother]
      | array items =>
          rw [without_of_not_object hname, iff_self_or]
          · exact fun h => absurd (crossesArray_array segment rest items) h.2
          · simp
      | _ =>
          rw [without_of_not_object hname, iff_self_or]
          · rintro ⟨hpart, -⟩
            cases t with
            | nil => exact absurd (List.prefix_nil.1 hpart) hne
            | cons other t => rfl
          · simp

/-- A removal leaves the arrays on the way of a chain of segments, unless it begins the chain and
goes through objects only. -/
theorem crossesArray_without_iff (hne : s ≠ []) (hs : Names s) (hv : v.Distinct)
    (h : s <+: t → CrossesArray s v) : CrossesArray t (without s v) ↔ CrossesArray t v := by
  induction s generalizing t v with
  | nil => exact absurd rfl hne
  | cons segment rest ih =>
      obtain ⟨hname, hrest⟩ := Segments.names_cons.1 hs
      cases v with
      | object m =>
          obtain ⟨m', hwithout, hothers, hself⟩ := exists_without_object segment rest hv.1
          rw [hwithout]
          cases t with
          | nil => exact iff_of_false (not_crossesArray_nil _) (not_crossesArray_nil _)
          | cons other t =>
              rw [crossesArray_object_iff, crossesArray_object_iff]
              by_cases hother : other = segment
              · subst hother
                rw [List.cons_prefix_cons, crossesArray_object_iff] at h
                rw [hself]
                by_cases hend : rest = []
                · obtain ⟨w, -, hcrosses⟩ := h ⟨rfl, hend ▸ List.nil_prefix⟩
                  exact absurd hcrosses (hend ▸ not_crossesArray_nil w)
                · cases hget : Fields.get? m other with
                  | none => simp [hend]
                  | some w =>
                      have hbelow : rest <+: t → CrossesArray rest w := by simpa [hget] using h
                      simpa [hend] using
                        ih hend hrest (Everywhere.field hv.2 hget) hbelow
              · rw [hothers other hother]
      | _ =>
          rw [without_of_not_object hname]
          simp

end Value

namespace Projection

open Value (terminals CrossesArray)

variable {d : Fields Value}

/-! ## Paths in turn -/

theorem object_erasePath (m : Fields Value) (path : String) :
    .object (Fields.erasePath m path).1 = (Value.object m).without (Segments.ofPath path) := by
  rw [Value.without]
  rcases Fields.erasePath_cases m path with ⟨hremove, herase⟩ | ⟨m', old, hremove, herase⟩
  · rw [hremove, herase]
    rfl
  · rw [hremove, herase]
    rfl

theorem dropPaths_cons (d : Fields Value) (path : String) (paths : List String) :
    dropPaths d (path :: paths) = dropPaths (Fields.erasePath d path).1 paths := rfl

/-- **What is left out cannot be read, but through arrays.** After paths are removed, a path reaches
nothing, and so has no value, iff it reached nothing or one of the removed paths begins it and goes
through objects only. -/
theorem terminals_dropped_iff {paths : List String}
    (hnames : ∀ q ∈ paths, Names (Segments.ofPath q)) (hd : (Value.object d).Distinct)
    (path : String) :
    (terminals ((drop paths).apply (.object d)) path = [] ↔
      terminals (.object d) path = [] ∨ ∃ q ∈ paths, Segments.ofPath q <+: Segments.ofPath path ∧
        ¬ CrossesArray (Segments.ofPath q) (.object d)) ∧
    (((drop paths).apply (.object d)).resolve? path = none ↔
      terminals ((drop paths).apply (.object d)) path = []) := by
  refine ⟨?_, Value.resolve?_eq_none_iff _ path⟩
  change terminals (.object (dropPaths d paths)) path = [] ↔ _
  induction paths generalizing d with
  | nil => simp [dropPaths]
  | cons first rest ih =>
      obtain ⟨hfirst, hrest⟩ := List.forall_mem_cons.1 hnames
      have hne := Segments.ofPath_ne_nil first
      have herase : (Value.object (Fields.erasePath d first).1).Distinct :=
        Value.Everywhere.erasePath Value.editable_distinct hd first
      have hreach := Value.reach_without_eq_nil_iff (t := Segments.ofPath path) hne hfirst hd
      rw [dropPaths_cons, ih hrest herase, object_erasePath, terminals, hreach,
        List.exists_mem_cons_iff]
      by_cases hgone : Segments.ofPath first <+: Segments.ofPath path ∧
          ¬ CrossesArray (Segments.ofPath first) (.object d)
      · simp [hgone]
      · -- What begins the path crosses the same arrays after the first removal.
        have hcrosses : ∀ q ∈ rest, Segments.ofPath q <+: Segments.ofPath path →
            (CrossesArray (Segments.ofPath q)
                ((Value.object d).without (Segments.ofPath first)) ↔
              CrossesArray (Segments.ofPath q) (.object d)) := by
          intro q _ hpart
          refine Value.crossesArray_without_iff hne hfirst hd fun hbegins => ?_
          exact not_not.1 fun hopen => hgone ⟨hbegins.trans hpart, hopen⟩
        rw [or_assoc, terminals]
        refine or_congr_right (or_congr_right (exists_congr fun q => and_congr_right fun hq =>
          and_congr_right fun hpart => not_congr (hcrosses q hq hpart)))

theorem terminals_dropped_iff_pets :
    let pet : Fields Value := [("_id", .int 1),
      ("owner", .object [("name", .string "Ann"), ("city", .string "Ulm")])]
    ofJson (.object [("owner.city", .bool false)]) = .ok (.drop ["owner.city"]) ∧
      (∀ q ∈ ["owner.city"], Names (Segments.ofPath q)) ∧ (Value.object pet).Distinct ∧
      terminals (.object pet) "owner.city" = [.string "Ulm"] ∧
      terminals ((drop ["owner.city"]).apply (.object pet)) "owner.city" = [] := by
  intro pet
  have hnames : ∀ q ∈ ["owner.city"], Names (Segments.ofPath q) := by decide
  have hpet : (Value.object pet).Distinct := by
    refine ⟨by decide, trivial, ?_, trivial⟩
    exact ⟨by decide, trivial, trivial, trivial⟩
  have hcity : Segments.ofPath "owner.city" = ["owner", "city"] := by decide
  have hulm : terminals (.object pet) "owner.city" = [.string "Ulm"] := by
    rw [terminals, hcity]
    rfl
  refine ⟨by rfl, hnames, hpet, hulm, ?_⟩
  refine (terminals_dropped_iff hnames hpet "owner.city").1.2
    (.inr ⟨"owner.city", List.mem_singleton_self _, List.prefix_rfl, ?_⟩)
  rw [hcity, Value.crossesArray_object_iff]
  rintro ⟨w, ⟨⟩, hcrosses⟩
  obtain ⟨v, -, hcrosses⟩ := Value.crossesArray_object_iff.1 hcrosses
  exact Value.not_crossesArray_nil v hcrosses

/-- A path through an array is left out in vain. -/
theorem not_terminals_dropped_tags :
    let pet : Fields Value := [("tags", .array [.object [("name", .string "dog")]])]
    ofJson (.object [("tags.name", .bool false)]) = .ok (.drop ["tags.name"]) ∧
      (∀ q ∈ ["tags.name"], Names (Segments.ofPath q)) ∧ (Value.object pet).Distinct ∧
      terminals ((drop ["tags.name"]).apply (.object pet)) "tags.name" = [.string "dog"] := by
  intro pet
  have hname : Segments.ofPath "tags.name" = ["tags", "name"] := by decide
  have hpet : (Value.object pet).Distinct :=
    ⟨by decide, ⟨⟨by decide, trivial, trivial⟩, trivial⟩, trivial⟩
  refine ⟨by rfl, by decide, hpet, ?_⟩
  rw [terminals, hname]
  rfl

end Projection

end DocStore
