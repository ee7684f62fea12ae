import DocStore.Proofs.Value.Write
import DocStore.Update

/-!
# Writing at paths that lie apart

Two paths lie apart if neither of them is a beginning of the other. Where nothing lies in the way, a
write makes objects only: its path then leads to the new value, and paths that lie apart from it
lead where they did. So an empty document can be given values at any paths that lie apart:
`Update.exists_seed`.
-/

set_option autoImplicit false

namespace DocStore

/-! ## Paths that lie apart -/

namespace Segments

/-- Neither chain of segments is a beginning of the other. -/
def Apart (s t : List String) : Prop := ¬ s <+: t ∧ ¬ t <+: s

variable {s t : List String}

instance : Decidable (Apart s t) := inferInstanceAs (Decidable (¬ s <+: t ∧ ¬ t <+: s))

theorem Apart.symm (h : Apart s t) : Apart t s := ⟨h.2, h.1⟩

theorem Apart.ne_nil (h : Apart s t) : t ≠ [] := by
  rintro rfl
  exact h.2 List.nil_prefix

theorem Apart.of_cons {segment : String} (h : Apart (segment :: s) (segment :: t)) : Apart s t :=
  ⟨fun hst => h.1 (List.cons_prefix_cons.2 ⟨rfl, hst⟩),
    fun hts => h.2 (List.cons_prefix_cons.2 ⟨rfl, hts⟩)⟩

end Segments

open Segments (Apart)

namespace Value

/-! ## Free paths -/

/-- Only objects lie on the way of a chain of segments, and nothing at its end. -/
def Free : List String → Value → Prop
  | segment :: rest, object m => ∀ w, Fields.get? m segment = some w → Free rest w
  | _, _ => False

variable {segments : List String}

theorem free_empty (h : segments ≠ []) : Free segments (object []) := by
  cases segments with
  | nil => exact absurd rfl h
  | cons segment rest => exact nofun

theorem Free.exists_object {v : Value} (h : Free segments v) : ∃ m, v = object m := by
  cases segments with
  | nil => cases h
  | cons segment rest =>
      cases v with
      | object m => exact ⟨m, rfl⟩
      | _ => cases h

/-- What is free below a field is free below an empty object in the place of a missing one. -/
theorem Free.getD {m : Fields Value} {segment : String} (h : Free (segment :: segments) (object m))
    (hne : segments ≠ []) : Free segments ((Fields.get? m segment).getD (object [])) := by
  cases hget : Fields.get? m segment with
  | none => exact free_empty hne
  | some w => exact h w hget

theorem reach_object (segment : String) (rest : List String) (m : Fields Value) :
    reach (segment :: rest) (object m) = (Fields.get? m segment).toList.flatMap (reach rest) := by
  rw [reach, children]

/-- A missing field reaches as much as an empty object. -/
theorem reach_getD (segment : String) (m : Fields Value) (hne : segments ≠ []) :
    reach segments ((Fields.get? m segment).getD (object [])) =
      reach (segment :: segments) (object m) := by
  rw [reach_object]
  cases Fields.get? m segment with
  | none =>
      cases segments with
      | nil => exact absurd rfl hne
      | cons next rest => rfl
  | some w => simp

/-! ## Writing where nothing lies in the way -/

/-- A new value leaves chains of segments alone: they reach what they did, and stay free. -/
def Spares (old new : Value) (t : List String) : Prop :=
  reach t new = reach t old ∧ (Free t old → Free t new)

theorem spares_insert_of_ne {m : Fields Value} {segment other : String} (hne : other ≠ segment)
    (w : Value) (rest : List String) :
    Spares (object m) (object (Fields.insert m segment w)) (other :: rest) := by
  have hget := Fields.get?_insert_of_ne m w hne
  refine ⟨by rw [reach_object, reach_object, hget], fun hfree => ?_⟩
  rw [Free, hget]
  exact hfree

/-- **A write on a free path** succeeds, its path leads to the value alone, and chains of segments
that lie apart are spared. -/
theorem Free.write {old : Value} (h : Free segments old) (path : String) (v : Value) :
    ∃ new, Value.write path v segments old = (new, none) ∧ reach segments new = [v] ∧
      ∀ t, Apart segments t → Spares old new t := by
  induction segments generalizing old with
  | nil => cases h
  | cons segment rest ih =>
      obtain ⟨m, rfl⟩ := h.exists_object
      have hself (w : Value) : reach (segment :: rest) (object (Fields.insert m segment w)) =
          reach rest w := by
        rw [reach_object, Fields.get?_insert_self]
        simp
      cases rest with
      | nil =>
          refine ⟨object (Fields.insert m segment v), rfl, hself v, fun t ht => ?_⟩
          cases t with
          | nil => exact absurd rfl ht.ne_nil
          | cons other t =>
              refine spares_insert_of_ne ?_ v t
              rintro rfl
              exact ht.of_cons.symm.ne_nil rfl
      | cons next rest =>
          obtain ⟨new, hwrite, hreach, hspares⟩ := ih (h.getD (List.cons_ne_nil _ _))
          refine ⟨object (Fields.insert m segment new), ?_, (hself new).trans hreach,
            fun t ht => ?_⟩
          · rw [Value.write, hwrite]
            exact List.cons_ne_nil _ _
          · cases t with
            | nil => exact absurd rfl ht.ne_nil
            | cons other t =>
                by_cases hother : other = segment
                · subst hother
                  have hbelow := hspares t ht.of_cons
                  have hne : t ≠ [] := ht.of_cons.ne_nil
                  refine ⟨?_, fun hfree => ?_⟩
                  · rw [reach_object, Fields.get?_insert_self, ← reach_getD other m hne,
                      ← hbelow.1]
                    simp
                  · rw [Free, Fields.get?_insert_self]
                    rintro _ ⟨⟩
                    exact hbelow.2 (hfree.getD hne)
                · exact spares_insert_of_ne hother new t

end Value

/-! ## Seeding -/

open Value (Free fieldTerminals)

theorem Value.fieldTerminals_eq (m : Fields Value) (path : String) :
    fieldTerminals m path = reach (Segments.ofPath path) (object m) := by
  obtain ⟨rest, hrest⟩ := Fields.ofPath_eq_top_cons path
  rw [fieldTerminals, hrest, reach_object]

/-- What a path reaches depends on the field that it starts with. -/
theorem Value.fieldTerminals_congr {m m' : Fields Value} {path : String}
    (h : Fields.get? m' (Segments.top path) = Fields.get? m (Segments.top path)) :
    fieldTerminals m' path = fieldTerminals m path := by
  obtain ⟨rest, hrest⟩ := Fields.ofPath_eq_top_cons path
  rw [fieldTerminals, fieldTerminals, hrest]
  dsimp only
  rw [h]

theorem Fields.exists_setPath?_of_free {m : Fields Value} {path : String}
    (h : Free (Segments.ofPath path) (.object m)) (v : Value) :
    ∃ m', setPath? m path v = .ok m' ∧ fieldTerminals m' path = [v] ∧
      ∀ t, Apart (Segments.ofPath path) t → Value.Spares (.object m) (.object m') t := by
  obtain ⟨new, hwrite, hreach, hspares⟩ := h.write path v
  obtain ⟨m', e, hobject, hset⟩ := setPath?_cases m path v
  obtain ⟨rfl, rfl⟩ := Prod.mk.inj (hwrite.symm.trans hobject)
  exact ⟨m', hset, (Value.fieldTerminals_eq m' path).trans hreach, hspares⟩

/-- **Seeding succeeds at free paths that lie apart.** Each of them leads to its value alone, and
what else lies apart leads where it did. -/
theorem Update.exists_seed {seeds : List (String × Value)} {m : Fields Value}
    (hapart : seeds.Pairwise fun d e => Apart (Segments.ofPath d.1) (Segments.ofPath e.1))
    (hfree : ∀ d ∈ seeds, Free (Segments.ofPath d.1) (.object m)) :
    ∃ m', seed m seeds = .ok m' ∧ (∀ d ∈ seeds, fieldTerminals m' d.1 = [d.2]) ∧
      ∀ path, (∀ d ∈ seeds, Apart (Segments.ofPath d.1) (Segments.ofPath path)) →
        fieldTerminals m' path = fieldTerminals m path := by
  induction seeds generalizing m with
  | nil => exact ⟨m, rfl, List.forall_mem_nil _, fun _ _ => rfl⟩
  | cons d rest ih =>
      obtain ⟨hd, hrest⟩ := List.pairwise_cons.1 hapart
      obtain ⟨hdfree, hrestfree⟩ := List.forall_mem_cons.1 hfree
      obtain ⟨m₁, hset, hvalue, hspares⟩ := Fields.exists_setPath?_of_free hdfree d.2
      obtain ⟨m', hseed, hvalues, hothers⟩ :=
        ih hrest fun e he => (hspares _ (hd e he)).2 (hrestfree e he)
      refine ⟨m', ?_, List.forall_mem_cons.2 ⟨?_, hvalues⟩, fun path hpath => ?_⟩
      · rw [seed, hset]
        exact hseed
      · rw [hothers d.1 fun e he => (hd e he).symm, hvalue]
      · obtain ⟨hdpath, hrestpath⟩ := List.forall_mem_cons.1 hpath
        rw [hothers path hrestpath, Value.fieldTerminals_eq, Value.fieldTerminals_eq,
          (hspares _ hdpath).1]

end DocStore
