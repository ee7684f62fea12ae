import DocStore.Proofs.Fields
import DocStore.Value.Path

/-!
# Properties at every depth

`Everywhere L N` says of a value that all scalars inside it have the property `L` and that the
fields of all objects inside it have the property `N`. So has whatever a path reaches in it, by way
of its arrays as well: `Everywhere.reach` and `Everywhere.resolve?`.
-/

set_option autoImplicit false

namespace DocStore.Value

variable {L : Value → Prop} {N : List (String × Value) → Prop}

mutual

/-- The scalars inside a value have one property, the fields of its objects another. -/
def Everywhere (L : Value → Prop) (N : List (String × Value) → Prop) : Value → Prop
  | array items => EverywhereItems L N items
  | object fields => N fields ∧ EverywhereFields L N fields
  | v => L v

/-- The same of all items of an array. -/
def EverywhereItems (L : Value → Prop) (N : List (String × Value) → Prop) : List Value → Prop
  | [] => True
  | v :: rest => Everywhere L N v ∧ EverywhereItems L N rest

/-- The same of all values of fields. -/
def EverywhereFields (L : Value → Prop) (N : List (String × Value) → Prop) :
    List (String × Value) → Prop
  | [] => True
  | (_, v) :: rest => Everywhere L N v ∧ EverywhereFields L N rest

end

theorem everywhereItems_iff {items : List Value} :
    EverywhereItems L N items ↔ ∀ v ∈ items, Everywhere L N v := by
  induction items with
  | nil => simp [EverywhereItems]
  | cons v rest ih => rw [EverywhereItems, ih, List.forall_mem_cons]

theorem everywhereFields_iff {fields : List (String × Value)} :
    EverywhereFields L N fields ↔ ∀ e ∈ fields, Everywhere L N e.2 := by
  induction fields with
  | nil => simp [EverywhereFields]
  | cons e rest ih =>
      obtain ⟨k, v⟩ := e
      rw [EverywhereFields, ih, List.forall_mem_cons]

theorem Everywhere.field {m : Fields Value} (h : EverywhereFields L N m) {name : String}
    {v : Value} (hv : Fields.get? m name = some v) : Everywhere L N v :=
  everywhereFields_iff.1 h _ (Fields.mem_of_get? hv)

/-! ## Values inside a value -/

/-- A value that is another one, or stands inside it at some depth. -/
inductive Inside (w : Value) : Value → Prop
  | here : Inside w w
  | item {items : List Value} {v : Value} : v ∈ items → Inside w v → Inside w (array items)
  | field {fields : List (String × Value)} {e : String × Value} :
      e ∈ fields → Inside w e.2 → Inside w (object fields)

theorem Inside.everywhere {v w : Value} (h : Inside w v) (hv : Everywhere L N v) :
    Everywhere L N w := by
  induction h with
  | here => exact hv
  | item hmem _ ih => exact ih (everywhereItems_iff.1 hv _ hmem)
  | field hmem _ ih => exact ih (everywhereFields_iff.1 hv.2 _ hmem)

/-- The property at the top of a value. -/
def AtTop (L : Value → Prop) (N : List (String × Value) → Prop) : Value → Prop
  | array _ => True
  | object fields => N fields
  | v => L v

theorem Everywhere.atTop {v : Value} (h : Everywhere L N v) : AtTop L N v := by
  cases v with
  | array items => trivial
  | object fields => exact h.1
  | _ => exact h

mutual

theorem everywhere_of_inside : ∀ {v : Value}, (∀ w, Inside w v → AtTop L N w) → Everywhere L N v
  | .array _, h => everywhereItems_of_inside fun _ hv w hw => h w (.item hv hw)
  | .object _, h => ⟨h _ .here, everywhereFields_of_inside fun _ he w hw => h w (.field he hw)⟩
  | .null, h | .bool _, h | .int _, h | .float _, h | .string _, h | .date _, h => h _ .here

theorem everywhereItems_of_inside : ∀ {items : List Value},
    (∀ v ∈ items, ∀ w, Inside w v → AtTop L N w) → EverywhereItems L N items
  | [], _ => trivial
  | v :: _, h => ⟨everywhere_of_inside (h v List.mem_cons_self),
      everywhereItems_of_inside fun u hu => h u (List.mem_cons_of_mem v hu)⟩

theorem everywhereFields_of_inside : ∀ {fields : List (String × Value)},
    (∀ e ∈ fields, ∀ w, Inside w e.2 → AtTop L N w) → EverywhereFields L N fields
  | [], _ => trivial
  | (k, v) :: _, h => ⟨everywhere_of_inside (h (k, v) List.mem_cons_self),
      everywhereFields_of_inside fun e he => h e (List.mem_cons_of_mem (k, v) he)⟩

end

/-- What holds everywhere in a value holds at the top of each value inside it. -/
theorem everywhere_iff_inside {v : Value} :
    Everywhere L N v ↔ ∀ w, Inside w v → AtTop L N w :=
  ⟨fun h _ hw => (hw.everywhere h).atTop, everywhere_of_inside⟩

/-! ## The values that a path reaches -/

mutual

theorem Everywhere.children {segment : String} : ∀ {v : Value}, Everywhere L N v →
    ∀ w ∈ children segment v, Everywhere L N w
  | .object _, h, _, hw => Everywhere.field h.2 (Option.mem_toList.1 hw)
  | .array items, h, w, hw => by
      rw [Value.children] at hw
      split at hw
      · exact everywhereItems_iff.1 h w (List.mem_of_getElem? (Option.mem_toList.1 hw))
      · exact EverywhereItems.children h w hw

theorem EverywhereItems.children {segment : String} : ∀ {items : List Value},
    EverywhereItems L N items → ∀ w ∈ childrenOfItems segment items, Everywhere L N w
  | _ :: _, h, w, hw => by
      rcases List.mem_append.1 hw with hw | hw
      · exact h.1.children w hw
      · exact EverywhereItems.children h.2 w hw

end

theorem Everywhere.reach {segments : List String} {v : Value} (h : Everywhere L N v) :
    ∀ w ∈ reach segments v, Everywhere L N w := by
  induction segments generalizing v with
  | nil =>
      intro w hw
      rwa [List.mem_singleton.1 hw]
  | cons segment rest ih =>
      intro w hw
      obtain ⟨child, hchild, hw⟩ := List.mem_flatMap.1 hw
      exact ih (h.children child hchild) w hw

/-! ## The value that they make up -/

section Gather

variable {segment : String} {next : Value → Option Value}

mutual

theorem Everywhere.gather
    (hnext : ∀ {v w : Value}, Everywhere L N v → next v = some w → Everywhere L N w) :
    ∀ {v w : Value}, Everywhere L N v → gather segment next v = some w → Everywhere L N w
  | .object fields, w, h, hw => by
      obtain ⟨child, hchild, hw⟩ := Option.bind_eq_some_iff.1 hw
      exact hnext (Everywhere.field h.2 hchild) hw
  | .array items, w, h, hw => by
      rw [Value.gather] at hw
      split at hw
      · obtain ⟨child, hchild, hw⟩ := Option.bind_eq_some_iff.1 hw
        exact hnext (everywhereItems_iff.1 h child (List.mem_of_getElem? hchild)) hw
      · split at hw
        · cases hw
        · cases hw
          -- An array has the property if its items do, so what is found can be gathered.
          exact everywhereItems_iff.2 (EverywhereItems.gather hnext h)

theorem EverywhereItems.gather
    (hnext : ∀ {v w : Value}, Everywhere L N v → next v = some w → Everywhere L N w) :
    ∀ {items : List Value}, EverywhereItems L N items →
      ∀ w ∈ gatherItems segment next items, Everywhere L N w
  | _ :: _, h, w, hw => by
      rcases List.mem_append.1 hw with hw | hw
      · exact h.1.gather hnext (Option.mem_toList.1 hw)
      · exact EverywhereItems.gather hnext h.2 w hw

end

end Gather

theorem Everywhere.resolve? {v w : Value} (h : Everywhere L N v) {path : String}
    (hw : resolve? v path = some w) : Everywhere L N w := by
  have hsegments : ∀ (segments : List String) {v w : Value}, Everywhere L N v →
      resolveSegments? segments v = some w → Everywhere L N w := by
    intro segments
    induction segments with
    | nil =>
        rintro v _ h ⟨⟩
        exact h
    | cons segment rest ih => exact fun h hw => h.gather ih hw
  exact hsegments _ h hw

/-! ## Weaker properties -/

variable {L' : Value → Prop}

mutual

/-- What is asked of the scalars can be weakened. -/
theorem Everywhere.mono (hL : ∀ v, L v → L' v) : ∀ {v : Value}, Everywhere L N v → Everywhere L' N v
  | .array _, h => EverywhereItems.mono hL h
  | .object _, h => ⟨h.1, EverywhereFields.mono hL h.2⟩
  | .null, h | .bool _, h | .int _, h | .float _, h | .string _, h | .date _, h => hL _ h

theorem EverywhereItems.mono (hL : ∀ v, L v → L' v) : ∀ {items : List Value},
    EverywhereItems L N items → EverywhereItems L' N items
  | [], _ => trivial
  | _ :: _, h => ⟨h.1.mono hL, EverywhereItems.mono hL h.2⟩

theorem EverywhereFields.mono (hL : ∀ v, L v → L' v) : ∀ {fields : List (String × Value)},
    EverywhereFields L N fields → EverywhereFields L' N fields
  | [], _ => trivial
  | _ :: _, h => ⟨h.1.mono hL, EverywhereFields.mono hL h.2⟩

end

end DocStore.Value
