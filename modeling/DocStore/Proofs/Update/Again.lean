import DocStore.Proofs.Update.Brings
import DocStore.Proofs.Value.Definite
import DocStore.Proofs.Value.Written

/-!
# Setting fields again

An update that sets fields changes nothing if it is applied again, provided that every path still
leads to what was set there. It does so if no path is the beginning of another one, in any spelling
of the items of arrays: `Update.apply_again_iff`. A reader of updates that refuses a path only where
it is given twice does not ensure this.
-/

set_option autoImplicit false

namespace DocStore

/-! ## Paths that are unrelated in every value -/

namespace Segments

/-- One spelling for all segments that address the same item of an array. -/
def plain (segment : String) : String := ((index? segment).map toString).getD segment

/-- Neither path leads to the other or into it, even if items are spelled differently. -/
def Unrelated (path other : String) : Prop :=
  Apart ((ofPath path).map plain) ((ofPath other).map plain)

instance (path other : String) : Decidable (Unrelated path other) :=
  inferInstanceAs (Decidable (Apart _ _))

end Segments

open Segments (Apart Unrelated plain)

namespace Value

variable {segment other : String} {s t : List String} {v x : Value}

theorem plain_eq_of_slot? (h : slot? segment v = slot? other v) (hslot : (slot? other v).isSome) :
    plain segment = plain other := by
  cases v with
  | object fields =>
      obtain rfl : segment = other := by simpa [slot?] using h
      rfl
  | array items =>
      obtain ⟨i, hother⟩ := Option.isSome_iff_exists.1 (Option.isSome_map.symm.trans hslot)
      have hsegment : Segments.index? segment = some i := by simpa [slot?, hother] using h
      rw [plain, plain, hsegment, hother]
      rfl
  | _ => cases hslot

/-- Where an unrelated path leads to something, the two address different slots on the way. -/
theorem diverge_of_apart (h : Apart (s.map plain) (t.map plain)) (hx : descend? t v = some x) :
    Diverge s t v := by
  induction s generalizing t v with
  | nil => exact absurd List.nil_prefix h.1
  | cons segment s ih =>
      cases t with
      | nil => exact absurd List.nil_prefix h.2
      | cons other t =>
          obtain ⟨w, hw, hbelow⟩ := Option.bind_eq_some_iff.1 hx
          by_cases hslot : slot? segment v = slot? other v
          · -- Both go on in one child, and it is there, since the second one leads on from it.
            have hplain := plain_eq_of_slot? hslot (isSome_slot? hw)
            rw [List.map_cons, List.map_cons, hplain] at h
            exact .deeper hslot ((child?_eq_of_slot? hslot).trans hw) (ih h.of_cons hbelow)
          · exact .here hslot

end Value

/-! ## Writing at a path -/

namespace Fields

variable {m m' : Fields Value} {path other : String} {v x : Value}

theorem getPath?_setPath?_of_unrelated (hpart : Unrelated path other)
    (h : setPath? m path v = .ok m') (hx : getPath? m other = some x) :
    getPath? m' other = some x := by
  have hwrite := write_of_setPath? h
  have hfound := Value.descend?_write_of_diverge (Value.diverge_of_apart hpart hx)
    (congrArg Prod.snd hwrite) hx
  rwa [hwrite] at hfound

end Fields

/-! ## Changes -/

namespace Change

variable {m m' : Fields Value} {path : String} {v : Value} {c d : Change} {changed : Bool}

/-- A value is set, and the path leads to it already, or to one of the same kind that equals it. -/
def Held (m : Fields Value) : Change → Prop
  | set path v => ∃ x, Fields.getPath? m path = some x ∧ identical x v = true
  | _ => False

theorem held_iff : (set path v).Held m ↔
    (Fields.getPath? m path).any (identical · v) = true := by
  rw [Option.any_eq_true]
  rfl

theorem identical_self (hv : v.Definite) : identical v v = true := by
  rw [identical, hv.equal_self, Bool.and_true]
  exact beq_self_eq_true v.kind

/-- **What setting a value did**: nothing if it was held, else it wrote the value. -/
theorem apply_set_cases (h : (set path v).apply m = .ok (m', changed)) :
    ((set path v).Held m ∧ m' = m ∧ changed = false) ∨
      (Fields.setPath? m path v = .ok m' ∧ changed = true) := by
  rcases assign_cases h with ⟨w, hw, hsame, hm, hchanged⟩ | hset
  · exact .inl ⟨⟨w, hw, hsame⟩, hm, hchanged⟩
  · exact .inr hset

/-- Setting a value changes nothing exactly if it is held. -/
theorem apply_set_iff : (set path v).apply m = .ok (m', false) ↔ m' = m ∧ (set path v).Held m := by
  constructor
  · intro h
    rcases apply_set_cases h with ⟨hheld, hm, -⟩ | ⟨-, hchanged⟩
    · exact ⟨hm, hheld⟩
    · cases hchanged
  · rintro ⟨rfl, hheld⟩
    show assign m' path v = _
    rw [assign_eq, if_pos (held_iff.1 hheld)]

/-- A value that was set is held. -/
theorem held_apply_set (hv : v.Definite) (h : (set path v).apply m = .ok (m', changed)) :
    (set path v).Held m' := by
  rcases apply_set_cases h with ⟨hheld, rfl, -⟩ | ⟨hset, -⟩
  · exact hheld
  · exact ⟨v, Fields.getPath?_setPath? hset, identical_self hv⟩

/-- What is held stays so when a value is set at an unrelated path. -/
theorem Held.apply_set (hd : d.Held m) (hpart : Unrelated path d.path)
    (h : (set path v).apply m = .ok (m', changed)) : d.Held m' := by
  rcases apply_set_cases h with ⟨-, rfl, -⟩ | ⟨hset, -⟩
  · exact hd
  · cases d with
    | set other w =>
        obtain ⟨x, hx, hsame⟩ := hd
        exact ⟨x, Fields.getPath?_setPath?_of_unrelated hpart hset hx, hsame⟩
    | _ => cases hd

end Change

/-! ## Updates -/

namespace Update

variable {m m' : Fields Value} {changes : List Change} {d : Change} {changed : Bool} {u : Update}
variable {effect : UpdateEffect}

/-- Changes that set values, and do nothing else. -/
def SetsOnly (changes : List Change) : Prop := ∀ c ∈ changes, ∃ path v, c = .set path v

/-- Changes of which no path leads to another one or into it. -/
def AllUnrelated (changes : List Change) : Prop :=
  changes.Pairwise fun c d => Unrelated c.path d.path

/-- **Setting values changes nothing** exactly if all of them are held. -/
theorem applyChanges_sets_iff (hsets : SetsOnly changes) :
    applyChanges m changes = .ok (m', false) ↔ m' = m ∧ ∀ c ∈ changes, c.Held m := by
  induction changes generalizing m with
  | nil =>
      constructor
      · intro h
        cases h
        exact ⟨rfl, List.forall_mem_nil _⟩
      · rintro ⟨rfl, -⟩
        rfl
  | cons c rest ih =>
      obtain ⟨⟨path, v, rfl⟩, hrest⟩ := List.forall_mem_cons.1 hsets
      rw [applyChanges_cons_eq_ok, List.forall_mem_cons]
      constructor
      · rintro ⟨m₁, now, later, hnow, hlater, hchanged⟩
        obtain ⟨rfl, rfl⟩ := Bool.or_eq_false_iff.1 hchanged.symm
        obtain ⟨rfl, hheld⟩ := Change.apply_set_iff.1 hnow
        obtain ⟨rfl, hall⟩ := (ih hrest).1 hlater
        exact ⟨rfl, hheld, hall⟩
      · rintro ⟨rfl, hheld, hall⟩
        exact ⟨m', false, false, Change.apply_set_iff.2 ⟨rfl, hheld⟩, (ih hrest).2 ⟨rfl, hall⟩, rfl⟩

/-- What is held stays so when values are set at unrelated paths. -/
theorem held_applyChanges_of_unrelated (hsets : SetsOnly changes)
    (hpart : ∀ c ∈ changes, Unrelated c.path d.path) (hd : d.Held m)
    (h : applyChanges m changes = .ok (m', changed)) : d.Held m' := by
  induction changes generalizing m changed with
  | nil =>
      cases h
      exact hd
  | cons c rest ih =>
      obtain ⟨⟨path, v, rfl⟩, hrest⟩ := List.forall_mem_cons.1 hsets
      obtain ⟨hfirst, hothers⟩ := List.forall_mem_cons.1 hpart
      obtain ⟨m₁, now, later, hnow, hlater, -⟩ := applyChanges_cons_eq_ok.1 h
      exact ih hrest hothers (hd.apply_set hfirst hnow) hlater

/-- **Values that are set at unrelated paths are held** in the end. -/
theorem held_applyChanges (hsets : SetsOnly changes)
    (hbrings : ∀ c ∈ changes, c.Brings Value.Definite) (hpart : AllUnrelated changes)
    (h : applyChanges m changes = .ok (m', changed)) : ∀ c ∈ changes, c.Held m' := by
  induction changes generalizing m changed with
  | nil => exact List.forall_mem_nil _
  | cons c rest ih =>
      obtain ⟨⟨path, v, rfl⟩, hrest⟩ := List.forall_mem_cons.1 hsets
      obtain ⟨hv, hvalues⟩ := List.forall_mem_cons.1 hbrings
      obtain ⟨hfirst, hothers⟩ := List.pairwise_cons.1 hpart
      obtain ⟨m₁, now, later, hnow, hlater, -⟩ := applyChanges_cons_eq_ok.1 h
      refine List.forall_mem_cons.2 ⟨?_, ih hrest hvalues hothers hlater⟩
      -- The value is held at once, and what is set after it lies elsewhere.
      have hheld := Change.held_apply_set hv hnow
      exact held_applyChanges_of_unrelated hrest (fun c hc => (hfirst c hc).symm) hheld hlater

/-- **Setting values again.** The second time changes nothing and says so exactly if all values that
were set are still held, which they are if their paths are unrelated. -/
theorem apply_again_iff {j : Json} (hj : j.Proper) (hu : ofJson j = .ok u)
    (hsets : SetsOnly u.changes) (h : u.apply m = .ok (m', effect)) :
    (u.apply m' = .ok (m', { effect with modified := false }) ↔ ∀ c ∈ u.changes, c.Held m') ∧
      (AllUnrelated u.changes → u.apply m' = .ok (m', { effect with modified := false })) := by
  obtain ⟨hchanges, htouched⟩ := apply_eq_ok.1 h
  have hiff : u.apply m' = .ok (m', { effect with modified := false }) ↔
      ∀ c ∈ u.changes, c.Held m' := by
    rw [apply_eq_ok, applyChanges_sets_iff hsets, and_iff_right rfl]
    exact and_iff_left htouched
  have hbrings : u.Brings Value.Definite := brings_ofJson Value.conveys_definite hj hu
  exact ⟨hiff, fun hpart => hiff.2 (held_applyChanges hsets hbrings hpart hchanges)⟩

/-- A tag and an owner get their names, twice. -/
theorem apply_again_iff_rex :
    let rex : Fields Value := [("_id", .int 1), ("tags", .array [.object [("name", .null)]])]
    let named : Fields Value := [("_id", .int 1),
      ("tags", .array [.object [("name", .string "wet")]]),
      ("owner", .object [("name", .string "Ann")])]
    let names : Json := .object [("$set", .object [("tags.0.name", .string "wet"),
      ("owner.name", .string "Ann")])]
    let u : Update := { changes := [.set "tags.0.name" (.string "wet"),
      .set "owner.name" (.string "Ann")] }
    names.Proper ∧ ofJson names = .ok u ∧ SetsOnly u.changes ∧ AllUnrelated u.changes ∧
      u.apply rex = .ok (named, { modified := true, touched := ["tags", "owner"] }) ∧
      u.apply named = .ok (named, { modified := false, touched := ["tags", "owner"] }) := by
  intro rex named names u
  have hproper : names.Proper := by
    refine ⟨?_, ⟨trivial, trivial, trivial⟩, trivial⟩
    simp [names, Json.Distinct, Json.DistinctFields, Fields.keys]
  have hread : ofJson names = .ok u := rfl
  have hsets : SetsOnly u.changes := by simp [u, SetsOnly]
  have hpart : AllUnrelated u.changes := by
    unfold AllUnrelated
    decide
  have hfirst : u.apply rex =
    .ok (named, { modified := true, touched := ["tags", "owner"] }) := rfl
  exact ⟨hproper, hread, hsets, hpart, hfirst,
    (apply_again_iff hproper hread hsets hfirst).2 hpart⟩

/-- A field is set inside a value that a number then replaces: the second time, nothing is there to
set it in. The reader compares whole paths only, and lets this pass. -/
theorem not_apply_again : ¬ ∀ (j : Json) (u : Update) (m m' : Fields Value)
    (effect : UpdateEffect), j.Proper → ofJson j = .ok u → SetsOnly u.changes →
      u.apply m = .ok (m', effect) → u.apply m' = .ok (m', { effect with modified := false }) := by
  intro hagain
  let j : Json := .object [("$set", .object [("a.b", .number (.integer 1)),
    ("a", .number (.integer 2))])]
  let u : Update := { changes := [.set "a.b" (.int 1), .set "a" (.int 2)] }
  let m' : Fields Value := [("_id", .int 1), ("a", .int 2)]
  have hproper : j.Proper := by
    refine ⟨?_, ⟨rfl, rfl, trivial⟩, trivial⟩
    simp [j, Json.Distinct, Json.DistinctFields, Fields.keys]
  have hread : ofJson j = .ok u := rfl
  have hsets : SetsOnly u.changes := by simp [u, SetsOnly]
  have hfirst : u.apply [("_id", .int 1)] =
    .ok (m', { modified := true, touched := ["a"] }) := rfl
  have hsecond : u.apply m' = .error (.type (.noField "b" .int "a.b")) := rfl
  have hok := hagain j u _ m' _ hproper hread hsets hfirst
  rw [hsecond] at hok
  cases hok

end Update

end DocStore
