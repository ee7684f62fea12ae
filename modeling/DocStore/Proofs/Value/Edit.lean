import DocStore.Proofs.Fields
import DocStore.Proofs.Value.Everywhere
import DocStore.Value.Edit

/-!
# What editing keeps

An edit below a segment of an object concerns one of its fields. A write at a path puts a value,
empty objects, and nulls into another value. So a property at every depth is kept if it holds of
these: `Everywhere.write`. Removing a field and going down a path keep it as well.
-/

set_option autoImplicit false

namespace DocStore

/-! ## Editing an object -/

theorem Fields.ofPath_eq_top_cons (path : String) :
    ∃ rest, Segments.ofPath path = Segments.top path :: rest := by
  cases h : Segments.ofPath path with
  | nil => exact absurd h (Segments.ofPath_ne_nil path)
  | cons segment rest => exact ⟨rest, by simp [Segments.top, h]⟩

/-- A write below a segment of an object writes the field of that segment. -/
theorem Value.write_object (path : String) (v : Value) (segment : String) (rest : List String)
    (m : Fields Value) :
    ∃ w e, Value.write path v (segment :: rest) (.object m) =
      (.object (Fields.insert m segment w), e) := by
  cases rest with
  | nil => exact ⟨v, none, rfl⟩
  | cons next rest => exact ⟨_, _, rfl⟩

/-- A removal below a segment of an object removes or writes the field of that segment. -/
theorem Value.remove?_object {segment : String} {rest : List String} {m : Fields Value}
    {w old : Value} (h : Value.remove? (segment :: rest) (.object m) = some (w, old)) :
    w = .object (Fields.erase m segment) ∨ ∃ v, w = .object (Fields.insert m segment v) := by
  cases rest with
  | nil =>
      obtain ⟨_, _, hw⟩ := Option.map_eq_some_iff.1 h
      cases hw
      exact .inl rfl
  | cons next rest =>
      obtain ⟨child, _, h⟩ := Option.bind_eq_some_iff.1 h
      obtain ⟨⟨child', old'⟩, _, h⟩ := Option.bind_eq_some_iff.1 h
      cases h
      exact .inr ⟨child', rfl⟩

/-! ## Properties that editing keeps -/

namespace Value

/-- Properties that hold of what editing puts in. -/
structure Editable (L : Value → Prop) (N : List (String × Value) → Prop) : Prop where
  null : L null
  empty : N []
  insert : ∀ {m : Fields Value} (name : String) (v : Value), N m → N (Fields.insert m name v)
  erase : ∀ {m : Fields Value} (name : String), N m → N (Fields.erase m name)

/-- Properties that hold of what editing puts in, and of sums. -/
structure Lasting (L : Value → Prop) (N : List (String × Value) → Prop) : Prop
    extends Editable L N where
  int : ∀ n : Int64, L (int n)
  float : ∀ f : Float, Binary64.isFinite f = true → L (float f)

variable {L : Value → Prop} {N : List (String × Value) → Prop}

/-! ## Fields and items -/

theorem everywhereFields_insert {m : Fields Value} (h : EverywhereFields L N m) (name : String)
    {v : Value} (hv : Everywhere L N v) : EverywhereFields L N (Fields.insert m name v) := by
  refine everywhereFields_iff.2 fun e he => ?_
  rcases Fields.mem_of_mem_insert he with rfl | he
  · exact hv
  · exact everywhereFields_iff.1 h e he

theorem everywhereFields_erase {m : Fields Value} (h : EverywhereFields L N m) (name : String) :
    EverywhereFields L N (Fields.erase m name) :=
  everywhereFields_iff.2 fun e he => everywhereFields_iff.1 h e (Fields.mem_of_mem_erase he)

theorem everywhereItems_set {items : List Value} (h : EverywhereItems L N items) (i : Nat)
    {v : Value} (hv : Everywhere L N v) : EverywhereItems L N (items.set i v) := by
  refine everywhereItems_iff.2 fun w hw => ?_
  rcases List.mem_or_eq_of_mem_set hw with hw | rfl
  · exact everywhereItems_iff.1 h w hw
  · exact hv

theorem everywhereItems_append {items more : List Value} (h : EverywhereItems L N items)
    (h' : EverywhereItems L N more) : EverywhereItems L N (items ++ more) := by
  refine everywhereItems_iff.2 fun v hv => ?_
  rcases List.mem_append.1 hv with hv | hv
  · exact everywhereItems_iff.1 h v hv
  · exact everywhereItems_iff.1 h' v hv

/-! ## Edits -/

namespace Everywhere

/-- What a path leads to has the property. -/
theorem descend? {segments : List String} {v w : Value} (h : Everywhere L N v)
    (hw : descend? segments v = some w) : Everywhere L N w := by
  induction segments generalizing v with
  | nil =>
      cases hw
      exact h
  | cons segment rest ih =>
      obtain ⟨child, hchild, hw⟩ := Option.bind_eq_some_iff.1 hw
      refine ih ?_ hw
      cases v with
      | object fields => exact field h.2 hchild
      | array items =>
          obtain ⟨i, -, hi⟩ := Option.bind_eq_some_iff.1 hchild
          exact everywhereItems_iff.1 h child (List.mem_of_getElem? hi)
      | _ => cases hchild

variable (hkept : Editable L N)
include hkept

theorem padTo {items : List Value} (h : EverywhereItems L N items) (i : Nat) :
    EverywhereItems L N (padTo i items) := by
  refine everywhereItems_append h (everywhereItems_iff.2 fun v hv => ?_)
  rw [List.eq_of_mem_replicate hv]
  exact hkept.null

/-- **Writing keeps a property** that the value has as well, also if the write is stopped. -/
theorem write {path : String} {v : Value} (hv : Everywhere L N v) (segments : List String)
    (old : Value) (hold : Everywhere L N old) :
    Everywhere L N (Value.write path v segments old).1 := by
  -- Down the path, the value to be edited becomes smaller.
  induction segments generalizing old with
  | nil => exact hold
  | cons segment rest ih =>
      have hempty : Everywhere L N (object []) := ⟨hkept.empty, trivial⟩
      cases old with
      | object fields =>
          cases rest with
          | nil => exact ⟨hkept.insert _ _ hold.1, everywhereFields_insert hold.2 segment hv⟩
          | cons next rest =>
              refine ⟨hkept.insert _ _ hold.1, everywhereFields_insert hold.2 segment (ih _ ?_)⟩
              cases hchild : Fields.get? fields segment with
              | none => exact hempty
              | some child => exact field hold.2 hchild
      | array items =>
          cases rest with
          | nil =>
              rw [Value.write]
              split
              · exact hold
              · exact everywhereItems_set (padTo hkept hold _) _ hv
          | cons next rest =>
              rw [Value.write]
              · split
                · exact hold
                · rename_i i _
                  refine everywhereItems_set (padTo hkept hold _) _ (ih _ ?_)
                  -- A null on the way gives way to an object.
                  split
                  · exact hempty
                  · rename_i child _ hchild
                    exact everywhereItems_iff.1 (padTo hkept hold i) _ (List.mem_of_getElem? hchild)
                  · exact hempty
              · nofun
      | _ => cases rest <;> exact hold

/-- **Removing keeps a property.** -/
theorem remove? {segments : List String} {v w old : Value} (hv : Everywhere L N v)
    (h : Value.remove? segments v = some (w, old)) : Everywhere L N w := by
  induction segments generalizing v w old with
  | nil => cases v <;> cases h
  | cons segment rest ih =>
      cases v with
      | object fields =>
          cases rest with
          | nil =>
              obtain ⟨_, -, hw⟩ := Option.map_eq_some_iff.1 h
              cases hw
              exact ⟨hkept.erase _ hv.1, everywhereFields_erase hv.2 segment⟩
          | cons next rest =>
              obtain ⟨child, hchild, h⟩ := Option.bind_eq_some_iff.1 h
              obtain ⟨⟨child', _⟩, hremove, h⟩ := Option.bind_eq_some_iff.1 h
              cases h
              exact ⟨hkept.insert _ _ hv.1,
                everywhereFields_insert hv.2 segment (ih (field hv.2 hchild) hremove)⟩
      | array items =>
          cases rest with
          | nil => cases h
          | cons next rest =>
              obtain ⟨i, -, h⟩ := Option.bind_eq_some_iff.1 h
              obtain ⟨child, hchild, h⟩ := Option.bind_eq_some_iff.1 h
              obtain ⟨⟨child', _⟩, hremove, h⟩ := Option.bind_eq_some_iff.1 h
              cases h
              have hitem := everywhereItems_iff.1 hv child (List.mem_of_getElem? hchild)
              exact everywhereItems_set hv i (ih hitem hremove)
      | _ => cases rest <;> cases h

/-- A write at a path of an object. -/
theorem setPath? {m m' : Fields Value} {path : String} {v : Value}
    (hm : Everywhere L N (object m)) (hv : Everywhere L N v)
    (h : Fields.setPath? m path v = .ok m') : Everywhere L N (object m') := by
  have hwrite : Everywhere L N (Value.write path v (Segments.ofPath path) (object m)).1 :=
    write hkept hv _ _ hm
  unfold Fields.setPath? Fields.setPath at h
  generalize Value.write path v (Segments.ofPath path) (object m) = result at h hwrite
  obtain ⟨w, e⟩ := result
  cases w with
  | object fields =>
      cases e with
      | none =>
          cases h
          exact hwrite
      | some e => cases h
  | _ =>
      cases e with
      | none =>
          cases h
          exact hm
      | some e => cases h

/-- A removal at a path of an object. -/
theorem erasePath {m : Fields Value} (hm : Everywhere L N (object m)) (path : String) :
    Everywhere L N (object (Fields.erasePath m path).1) := by
  unfold Fields.erasePath
  split
  · rename_i h
    exact remove? hkept hm h
  · exact hm

end Everywhere

end Value

end DocStore
