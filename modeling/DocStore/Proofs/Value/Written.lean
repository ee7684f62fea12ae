import DocStore.Proofs.Fields
import DocStore.Proofs.Value.Apart
import DocStore.Proofs.Value.Write

/-!
# What writes leave behind

A segment of a path addresses a slot of a value: a field of an object, or an item of an array. An
item may be spelled in several ways. `Value.withChild` puts a child into a slot; what is in other
slots stays as it was. Two paths `Diverge` in a value if they lead to one container and address
different slots of it.

A write goes down its path through the children that are there, and through empty objects where
none are: a write that is stopped has made nothing yet, so all is as it was
(`Fields.setPath_eq_of_error`). A write that is not stopped puts the value at the end of its path
and changes nothing that other paths lead to (`Fields.written_setPath`).
-/

set_option autoImplicit false

namespace DocStore

namespace Value

section Slots

/-! ## Slots -/

/-- A slot of an object or of an array. -/
inductive Slot where
  | field (name : String)
  | item (i : Nat)
deriving DecidableEq

/-- The slot of a value that a segment addresses. -/
def slot? (segment : String) : Value → Option Slot
  | object _ => some (.field segment)
  | array _ => (Segments.index? segment).map .item
  | _ => none

/-- A value with a child in the slot that a segment addresses. An array grows up to the slot. -/
def withChild (segment : String) (w : Value) : Value → Value
  | object fields => object (Fields.insert fields segment w)
  | array items =>
    match Segments.index? segment with
    | some i => array ((padTo i items).set i w)
    | none => array items
  | v => v

variable {segment other : String} {v w x : Value}

/-- Segments that address one slot lead to one child. -/
theorem child?_eq_of_slot? (h : slot? segment v = slot? other v) :
    child? segment v = child? other v := by
  cases v with
  | object fields =>
      obtain rfl : segment = other := by simpa [slot?] using h
      rfl
  | array items =>
      have hindex : Segments.index? segment = Segments.index? other := by
        simp only [slot?] at h
        exact Option.map_injective (fun i j hij => Slot.item.inj hij) h
      rw [child?, child?, hindex]
  | _ => rfl

/-- A child lies in a slot. -/
theorem isSome_slot? (h : child? segment v = some w) : (slot? segment v).isSome := by
  cases v with
  | object fields => rfl
  | array items =>
      obtain ⟨i, hindex, -⟩ := Option.bind_eq_some_iff.1 h
      rw [slot?, hindex]
      rfl
  | _ => cases h

/-! ## Children in slots -/

theorem getElem?_padTo_of_lt {items : List Value} {i j : Nat} (h : j < items.length) :
    (padTo i items)[j]? = items[j]? := List.getElem?_append_left h

theorem lt_length_padTo (i : Nat) (items : List Value) : i < (padTo i items).length := by
  rw [padTo, List.length_append, List.length_replicate]
  omega

theorem withChild_array {items : List Value} {i : Nat} (h : Segments.index? segment = some i) :
    withChild segment w (array items) = array ((padTo i items).set i w) := by
  rw [withChild, h]

theorem slot?_withChild : slot? other (withChild segment w v) = slot? other v := by
  cases v with
  | array items =>
      rw [withChild]
      split <;> rfl
  | _ => rfl

/-- A child that is put into a slot is there. -/
theorem child?_withChild_self (h : (slot? segment v).isSome) :
    child? segment (withChild segment w v) = some w := by
  cases v with
  | object fields => exact Fields.get?_insert_self fields segment w
  | array items =>
      obtain ⟨i, hindex⟩ := Option.isSome_iff_exists.1 (Option.isSome_map.symm.trans h)
      rw [withChild_array hindex, child?, hindex]
      exact List.getElem?_set_self (lt_length_padTo i items)
  | _ => cases h

/-- It is found in other spellings of the slot as well. -/
theorem child?_withChild_of_eq (hslot : slot? segment v = slot? other v)
    (h : (slot? segment v).isSome) : child? other (withChild segment w v) = some w := by
  have hsame : slot? segment (withChild segment w v) = slot? other (withChild segment w v) := by
    rw [slot?_withChild, slot?_withChild, hslot]
  rw [← child?_eq_of_slot? hsame]
  exact child?_withChild_self h

/-- Children in other slots stay there. -/
theorem child?_withChild_of_ne (hne : slot? segment v ≠ slot? other v)
    (h : child? other v = some x) : child? other (withChild segment w v) = some x := by
  cases v with
  | object fields =>
      have hname : other ≠ segment := by
        rintro rfl
        exact hne rfl
      exact (Fields.get?_insert_of_ne fields w hname).trans h
  | array items =>
      obtain ⟨j, hother, hj⟩ := Option.bind_eq_some_iff.1 h
      cases hindex : Segments.index? segment with
      | none => rwa [withChild, hindex]
      | some i =>
          have hij : i ≠ j := by
            rintro rfl
            exact hne (by rw [slot?, slot?, hindex, hother])
          have hlt : j < items.length := (List.getElem?_eq_some_iff.1 hj).1
          rw [withChild_array hindex, child?, hother, Option.bind_some, List.getElem?_set_ne hij,
            getElem?_padTo_of_lt hlt]
          exact hj
  | _ => cases h

/-- Putting a child where one was changes no other slot, empty ones included. -/
theorem child?_withChild_of_child? (h : child? segment v = some x)
    (hne : slot? segment v ≠ slot? other v) :
    child? other (withChild segment w v) = child? other v := by
  cases v with
  | object fields =>
      refine Fields.get?_insert_of_ne fields w ?_
      rintro rfl
      exact hne rfl
  | array items =>
      obtain ⟨i, hindex, hi⟩ := Option.bind_eq_some_iff.1 h
      have hlt : i < items.length := (List.getElem?_eq_some_iff.1 hi).1
      rw [withChild_array hindex, padTo_of_lt hlt]
      cases hother : Segments.index? other with
      | none => rw [child?, child?, hother, Option.bind_none, Option.bind_none]
      | some j =>
          have hij : i ≠ j := by
            rintro rfl
            exact hne (by rw [slot?, slot?, hindex, hother])
          rw [child?, child?, hother, Option.bind_some, Option.bind_some, List.getElem?_set_ne hij]
  | _ => cases h

/-- A child that is put where it was changes nothing. -/
theorem withChild_self (h : child? segment v = some w) : withChild segment w v = v := by
  cases v with
  | object fields => exact congrArg object (Fields.insert_of_get? h)
  | array items =>
      obtain ⟨i, hindex, hi⟩ := Option.bind_eq_some_iff.1 h
      obtain ⟨hlt, hget⟩ := List.getElem?_eq_some_iff.1 hi
      rw [withChild_array hindex, padTo_of_lt hlt, ← hget, List.set_getElem_self]
  | _ => cases h

/-- Of two children put into a slot, the second one counts. -/
theorem withChild_withChild (h : child? segment v = some x) (u : Value) :
    withChild segment u (withChild segment w v) = withChild segment u v := by
  cases v with
  | object fields => exact congrArg object (Fields.insert_insert fields segment w u)
  | array items =>
      obtain ⟨i, hindex, hi⟩ := Option.bind_eq_some_iff.1 h
      have hlt : i < items.length := (List.getElem?_eq_some_iff.1 hi).1
      have hset : i < (items.set i w).length := by rwa [List.length_set]
      rw [withChild_array hindex, padTo_of_lt hlt, withChild_array hindex, padTo_of_lt hset,
        withChild_array hindex, padTo_of_lt hlt, List.set_set]
  | _ => cases h

/-! ## Paths that diverge -/

/-- Two chains of segments address different slots of a container that both lead to, be it in
different spellings. -/
inductive Diverge : List String → List String → Value → Prop
  | here {s t : String} {p q : List String} {v : Value} (h : slot? s v ≠ slot? t v) :
      Diverge (s :: p) (t :: q) v
  | deeper {s t : String} {p q : List String} {v w : Value} (h : slot? s v = slot? t v)
      (hw : child? s v = some w) (hpq : Diverge p q w) : Diverge (s :: p) (t :: q) v

theorem not_diverge_null {p q : List String} : ¬ Diverge p q null := by
  intro h
  cases h with
  | here h => exact h rfl
  | deeper h hw hpq => cases hw

theorem Diverge.ne_nil {p q : List String} (h : Diverge p q v) : p ≠ [] := by
  cases h <;> exact List.cons_ne_nil _ _

end Slots

variable {path segment : String} {rest segments : List String} {v w x old : Value}

/-! ## One step of a write -/

/-- The child that a write goes on with. An empty object stands in for a missing child, and for an
item that is null. -/
def passage (segment : String) : Value → Value
  | object fields => (Fields.get? fields segment).getD (object [])
  | array items =>
    match (Segments.index? segment).bind (items[·]?) with
    | none => object []
    | some null => object []
    | some w => w
  | _ => object []

/-- What a write makes of the child of a segment: at the end of the path that is the new value. -/
def writeChild (path : String) (v : Value) (segment : String) (rest : List String) (old : Value) :
    Value × Option Error :=
  if rest = [] then (v, none) else write path v rest (passage segment old)

theorem writeChild_nil : writeChild path v segment [] old = (v, none) := rfl

theorem writeChild_cons {next : String} :
    writeChild path v segment (next :: rest) old =
      write path v (next :: rest) (passage segment old) := rfl

theorem passage_of_child? (h : child? segment v = some w) (hw : w ≠ null) :
    passage segment v = w := by
  cases v with
  | object fields =>
      have hget : Fields.get? fields segment = some w := h
      rw [passage, hget, Option.getD_some]
  | array items =>
      have hget : (Segments.index? segment).bind (items[·]?) = some w := h
      rw [passage, hget]
      cases w with
      | null => exact absurd rfl hw
      | _ => rfl
  | _ => cases h

/-- A child on the way to an object is no null. -/
theorem passage_of_descend? {way : List String} {fields : Fields Value}
    (h : child? segment v = some w) (hdown : descend? way w = some (object fields)) :
    passage segment v = w := by
  refine passage_of_child? h ?_
  rintro rfl
  cases way <;> cases hdown

/-- A write goes on with the child that is there, or with an empty object. -/
theorem passage_cases (segment : String) (v : Value) :
    child? segment v = some (passage segment v) ∨ passage segment v = object [] := by
  cases v with
  | object fields =>
      cases hget : Fields.get? fields segment with
      | none => exact .inr (by rw [passage, hget, Option.getD_none])
      | some w => exact .inl (by rw [passage, hget, Option.getD_some, child?, hget])
  | array items =>
      cases hget : (Segments.index? segment).bind (items[·]?) with
      | none => exact .inr (by rw [passage, hget])
      | some w =>
          by_cases hw : w = null
          · exact .inr (by rw [passage, hget, hw])
          · have hchild : child? segment (array items) = some w := hget
            exact .inl (by rw [passage_of_child? hchild hw, hchild])
  | _ => exact .inr rfl

theorem getElem?_padTo_self (i : Nat) (items : List Value) :
    (padTo i items)[i]? = some (items[i]?.getD null) := by
  by_cases h : i < items.length
  · rw [padTo_of_lt h, List.getElem?_eq_getElem h, Option.getD_some]
  · have hle : items.length ≤ i := Nat.le_of_not_lt h
    have hlast : i - items.length < i + 1 - items.length := by omega
    rw [List.getElem?_eq_none hle, Option.getD_none, padTo, List.getElem?_append_right hle,
      List.getElem?_replicate, if_pos hlast]

theorem index?_of_slot {items : List Value} {i : Nat} (h : slot path segment items = .ok i) :
    Segments.index? segment = some i := by
  unfold slot at h
  split at h
  · cases h
  · rename_i j hj
    split at h
    · cases h
    · rw [hj, Except.ok.inj h]

/-- Below an item of an array that is long enough, a write goes on with what stands for it. -/
theorem write_array_cons {items : List Value} {i : Nat} {next : String}
    (hslot : slot path segment items = .ok i) :
    write path v (segment :: next :: rest) (array items) =
      (array ((padTo i items).set i
        (write path v (next :: rest) (passage segment (array items))).1),
        (write path v (next :: rest) (passage segment (array items))).2) := by
  rw [write, hslot]
  · dsimp only
    rw [getElem?_padTo_self, passage, index?_of_slot hslot, Option.bind_some]
    cases items[i]? with
    | none => rfl
    | some w => cases w <;> rfl
  · exact List.cons_ne_nil _ _

/-- **One step of a write.** It is stopped at once, where no child is, or it goes on below a slot
and puts there what it makes of the child. -/
theorem write_cons_cases (path : String) (v : Value) (segment : String) (rest : List String)
    (old : Value) :
    child? segment old = none ∧ (∃ e, write path v (segment :: rest) old = (old, some e)) ∨
      (slot? segment old).isSome ∧ write path v (segment :: rest) old =
        (withChild segment (writeChild path v segment rest old).1 old,
          (writeChild path v segment rest old).2) := by
  cases old with
  | object fields =>
      refine .inr ⟨rfl, ?_⟩
      cases rest with
      | nil => rfl
      | cons next rest => rfl
  | array items =>
      cases hslot : slot path segment items with
      | error e =>
          -- An item within the array has a slot, so there is none where the slot is refused.
          refine .inl ⟨Option.eq_none_iff_forall_ne_some.2 fun w hw => ?_, e, ?_⟩
          · obtain ⟨i, hindex, hi⟩ := Option.bind_eq_some_iff.1 hw
            have hok := (slot_of_lt path hindex (List.getElem?_eq_some_iff.1 hi).1).1
            rw [hslot] at hok
            cases hok
          · cases rest <;> simp [write, hslot]
      | ok i =>
          have hindex := index?_of_slot hslot
          refine .inr ⟨by rw [slot?, hindex]; rfl, ?_⟩
          rw [withChild_array hindex]
          cases rest with
          | nil => simp [write, hslot, writeChild_nil]
          | cons next rest => exact write_array_cons hslot
  | _ => cases rest <;> exact .inl ⟨rfl, _, rfl⟩

/-- Where a child is, a write goes on. -/
theorem write_cons_of_child? (h : child? segment old = some w) :
    write path v (segment :: rest) old =
      (withChild segment (writeChild path v segment rest old).1 old,
        (writeChild path v segment rest old).2) := by
  rcases write_cons_cases path v segment rest old with ⟨hnone, -⟩ | ⟨-, hstep⟩
  · rw [h] at hnone
    cases hnone
  · exact hstep

/-! ## A write that is stopped -/

/-- **A write that is stopped changes nothing.** -/
theorem write_eq_of_error {e : Error} (h : (write path v segments old).2 = some e) :
    (write path v segments old).1 = old := by
  induction segments generalizing old with
  | nil => cases h
  | cons segment rest ih =>
      rcases write_cons_cases path v segment rest old with ⟨-, e', hstop⟩ | ⟨-, hstep⟩
      · rw [hstop]
      · rw [hstep] at h ⊢
        cases rest with
        | nil => cases h
        | cons next rest =>
            rw [writeChild_cons] at h ⊢
            have hsame := ih h
            rcases passage_cases segment old with hchild | hempty
            · -- The child was there, and it stays as it is.
              dsimp only
              rw [hsame]
              exact withChild_self hchild
            · -- In an empty object nothing lies in the way, so nothing stops the write.
              obtain ⟨new, hnew, -⟩ := (free_empty (List.cons_ne_nil next rest)).write path v
              rw [hempty, hnew] at h
              cases h

/-! ## A write that is not stopped -/

/-- A write that is not stopped goes on below a slot, and is not stopped there either. -/
theorem write_cons_of_ok (h : (write path v (segment :: rest) old).2 = none) :
    (slot? segment old).isSome ∧ (writeChild path v segment rest old).2 = none ∧
      (write path v (segment :: rest) old).1 =
        withChild segment (writeChild path v segment rest old).1 old := by
  rcases write_cons_cases path v segment rest old with ⟨-, e, hstop⟩ | ⟨hslot, hstep⟩
  · rw [hstop] at h
    cases h
  · rw [hstep] at h ⊢
    exact ⟨hslot, h, rfl⟩

/-- The child that a write makes is found in its slot. -/
theorem child?_write (h : (write path v (segment :: rest) old).2 = none) :
    child? segment (write path v (segment :: rest) old).1 =
      some (writeChild path v segment rest old).1 := by
  obtain ⟨hslot, -, hnew⟩ := write_cons_of_ok h
  rw [hnew]
  exact child?_withChild_self hslot

/-- **What is written is found** at the end of the path. -/
theorem descend?_write (hne : segments ≠ []) (h : (write path v segments old).2 = none) :
    descend? segments (write path v segments old).1 = some v := by
  induction segments generalizing old with
  | nil => exact absurd rfl hne
  | cons segment rest ih =>
      rw [descend?, child?_write h, Option.bind_some]
      cases rest with
      | nil => rfl
      | cons next rest =>
          obtain ⟨-, hbelow, -⟩ := write_cons_of_ok h
          exact ih (List.cons_ne_nil next rest) hbelow

/-- **What other paths found is found again**, if they diverge from the one that is written. -/
theorem descend?_write_of_diverge {t : List String} (hpart : Diverge segments t old)
    (h : (write path v segments old).2 = none) (hx : descend? t old = some x) :
    descend? t (write path v segments old).1 = some x := by
  induction segments generalizing t old with
  | nil => exact absurd rfl hpart.ne_nil
  | cons segment rest ih =>
      obtain ⟨-, hbelow, hnew⟩ := write_cons_of_ok h
      cases hpart with
      | @here _ other _ q _ hslot =>
          -- The write makes a new child in another slot, the other path goes on as it did.
          obtain ⟨child, hchild, hrest⟩ := Option.bind_eq_some_iff.1 hx
          rw [hnew, descend?, child?_withChild_of_ne hslot hchild]
          exact hrest
      | @deeper _ other _ q _ child hslot hchild hpq =>
          have hother : child? other old = some child :=
            (child?_eq_of_slot? hslot).symm.trans hchild
          have hrest : descend? q child = some x := by
            rw [descend?, hother] at hx
            exact hx
          -- Both paths go on in the child, so the write does not replace it by an empty object.
          have hpassage : passage segment old = child := by
            refine passage_of_child? hchild ?_
            rintro rfl
            exact not_diverge_null hpq
          rw [hnew, descend?, child?_withChild_of_eq hslot (isSome_slot? hchild), Option.bind_some]
          cases rest with
          | nil => exact absurd rfl hpq.ne_nil
          | cons next rest =>
              rw [writeChild_cons, hpassage] at hbelow ⊢
              exact ih hpq hbelow hrest

/-- **Objects on the way keep the order of their fields**, and a new field comes last. -/
theorem names_write {way : List String} {name : String} {fields : Fields Value}
    (hway : way ++ [name] <+: segments) (h : (write path v segments old).2 = none)
    (hfields : descend? way old = some (object fields)) :
    ∃ fields', descend? way (write path v segments old).1 = some (object fields') ∧
      Fields.keys fields' =
        if name ∈ Fields.keys fields then Fields.keys fields else Fields.keys fields ++ [name] := by
  induction way generalizing segments old with
  | nil =>
      cases hfields
      cases segments with
      | nil => exact absurd (List.prefix_nil.1 hway) (List.cons_ne_nil _ _)
      | cons segment rest =>
          -- The object is reached, and its field of that name is the slot of this step.
          obtain ⟨rfl, -⟩ := List.cons_prefix_cons.1 hway
          obtain ⟨-, -, hnew⟩ := write_cons_of_ok h
          exact ⟨_, congrArg some hnew, Fields.keys_insert _ _ _⟩
  | cons first way ih =>
      cases segments with
      | nil => exact absurd (List.prefix_nil.1 hway) (List.cons_ne_nil _ _)
      | cons segment rest =>
          obtain ⟨rfl, hrest⟩ := List.cons_prefix_cons.1 hway
          obtain ⟨child, hchild, hdown⟩ := Option.bind_eq_some_iff.1 hfields
          obtain ⟨-, hbelow, -⟩ := write_cons_of_ok h
          -- The way leads on to an object, so the write goes on with the same child.
          have hpassage := passage_of_descend? hchild hdown
          cases rest with
          | nil => exact absurd (List.prefix_nil.1 hrest) (by simp)
          | cons next rest =>
              rw [descend?, child?_write h, Option.bind_some]
              rw [writeChild_cons, hpassage] at hbelow ⊢
              exact ih hrest hbelow hdown

end Value

/-! ## Writing at a path of an object -/

namespace Fields

variable {m m' : Fields Value} {path : String} {v : Value}

theorem write_of_setPath? (h : setPath? m path v = .ok m') :
    Value.write path v (Segments.ofPath path) (.object m) = (.object m', none) := by
  obtain ⟨fields, e, hwrite, hset⟩ := setPath?_cases m path v
  rw [h] at hset
  cases e with
  | none =>
      cases hset
      exact hwrite
  | some e => cases hset

theorem getPath?_setPath? (h : setPath? m path v = .ok m') : getPath? m' path = some v := by
  have hwrite := write_of_setPath? h
  have hfound := Value.descend?_write (Segments.ofPath_ne_nil path) (congrArg Prod.snd hwrite)
  rwa [hwrite] at hfound

/-- A write at a path of an object, by its segments. -/
theorem object_setPath (m : Fields Value) (path : String) (v : Value) :
    Value.write path v (Segments.ofPath path) (.object m) =
      (.object (setPath m path v).1, (setPath m path v).2) := by
  obtain ⟨rest, hrest⟩ := ofPath_eq_top_cons path
  obtain ⟨w, e, hwrite⟩ := Value.write_object path v (Segments.top path) rest m
  rw [setPath, hrest, hwrite]

/-- **A write is all or nothing.** If it is stopped, by whatever lies on its way, then no object has
been made, no array has grown and no null has been replaced. -/
theorem setPath_eq_of_error {e : Error} (h : (setPath m path v).2 = some e) :
    (setPath m path v).1 = m := by
  have hwrite := object_setPath m path v
  have hstop : (Value.write path v (Segments.ofPath path) (.object m)).2 = some e := by
    rw [hwrite]
    exact h
  have hsame := Value.write_eq_of_error hstop
  rw [hwrite] at hsame
  exact Value.object.inj hsame

/-- A null on the way gives way to an object, but not if an index further on is too far beyond the
end of its array. -/
theorem setPath_eq_of_error_tags :
    let pet : Fields Value := [("_id", .int 1), ("tags", .array [.string "dog", .null])]
    (setPath pet "tags.1.seen" (.int 2)).2 = none ∧
      (setPath pet "tags.20000.seen" (.int 2)).2 =
        some (.query (.indexTooFar 20000 "tags.20000.seen" 2)) ∧
      (setPath pet "tags.20000.seen" (.int 2)).1 = pet := by
  intro pet
  have hnear : Segments.ofPath "tags.1.seen" = ["tags", "1", "seen"] := by decide
  have hfar : Segments.ofPath "tags.20000.seen" = ["tags", "20000", "seen"] := by decide
  have hstop : (setPath pet "tags.20000.seen" (.int 2)).2 =
      some (.query (.indexTooFar 20000 "tags.20000.seen" 2)) := by
    rw [setPath, hfar]
    rfl
  refine ⟨?_, hstop, setPath_eq_of_error hstop⟩
  rw [setPath, hnear]
  rfl

/-- What the fields are after a value is written at a path. -/
structure Written (m m' : Fields Value) (path : String) (v : Value) : Prop where
  /-- The path leads to the value. -/
  found : getPath? m' path = some v
  /-- A path that names another slot on the way leads where it did. -/
  others : ∀ other x,
    Value.Diverge (Segments.ofPath path) (Segments.ofPath other) (.object m) →
      getPath? m other = some x → getPath? m' other = some x
  /-- The fields of objects on the way keep their order, and a new one comes last. -/
  names : ∀ way name fields, way ++ [name] <+: Segments.ofPath path →
    Value.descend? way (.object m) = some (.object fields) →
      ∃ fields', Value.descend? way (.object m') = some (.object fields') ∧
        keys fields' = if name ∈ keys fields then keys fields else keys fields ++ [name]

/-- **Writing at a path.** It is not stopped if the path leads somewhere. If it is not stopped, the
path leads to the value, other paths lead where they did, and objects on the way keep the order of
their fields. -/
theorem written_setPath (m : Fields Value) (path : String) (v : Value) :
    (∀ w, getPath? m path = some w → (setPath m path v).2 = none) ∧
      ((setPath m path v).2 = none → Written m (setPath m path v).1 path v) := by
  have hwrite := object_setPath m path v
  constructor
  · intro w hw
    have hdone : (Value.write path v (Segments.ofPath path) (.object m)).2 = none :=
      Value.write_of_descend? v hw
    rw [hwrite] at hdone
    exact hdone
  · intro h
    have hdone : (Value.write path v (Segments.ofPath path) (.object m)).2 = none := by
      rw [hwrite]
      exact h
    have hnew : (Value.write path v (Segments.ofPath path) (.object m)).1 =
        .object (setPath m path v).1 := by rw [hwrite]
    refine ⟨?_, fun other x hpart hx => ?_, fun way name fields hway hfields => ?_⟩
    · have hfound := Value.descend?_write (Segments.ofPath_ne_nil path) hdone
      rw [hnew] at hfound
      exact hfound
    · have hfound := Value.descend?_write_of_diverge hpart hdone hx
      rw [hnew] at hfound
      exact hfound
    · have hnames := Value.names_write hway hdone hfields
      rw [hnew] at hnames
      exact hnames

/-- The second tag is written in another spelling of its index; what the first one holds stays. -/
theorem written_setPath_tags :
    let pet : Fields Value :=
      [("tags", .array [.object [("name", .string "dog")], .null]), ("_id", .int 1)]
    let written := (setPath pet "tags.01.name" (.string "cat")).1
    getPath? pet "tags.+1" = some .null ∧
      getPath? written "tags.+1.name" = some (.string "cat") ∧
      Written pet written "tags.01.name" (.string "cat") := by
  intro pet written
  have hpath : Segments.ofPath "tags.01.name" = ["tags", "01", "name"] := by decide
  have hother : Segments.ofPath "tags.+1.name" = ["tags", "+1", "name"] := by decide
  have hnull : Segments.ofPath "tags.+1" = ["tags", "+1"] := by decide
  have hdone : (setPath pet "tags.01.name" (.string "cat")).2 = none := by
    rw [setPath, hpath]
    rfl
  refine ⟨?_, ?_, (written_setPath pet "tags.01.name" (.string "cat")).2 hdone⟩
  · rw [getPath?, Value.getPath?, hnull]
    rfl
  · show getPath? (setPath pet "tags.01.name" (.string "cat")).1 "tags.+1.name" = _
    rw [getPath?, Value.getPath?, hother, setPath, hpath]
    rfl

end Fields

end DocStore
