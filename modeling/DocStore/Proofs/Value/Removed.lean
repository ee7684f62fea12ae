import DocStore.Proofs.Value.Regular
import DocStore.Proofs.Value.Written

/-!
# What removals leave behind

A removal takes a field out of the object that holds it, wherever a path leads to that object, and
gives what the field held. Nothing else changes: `Fields.erased_erasePath`. What can be removed
after a removal could be removed before, so a path that was removed stays removed:
`Value.remove?_eq_none_of_remove?`.
-/

set_option autoImplicit false

namespace DocStore

namespace Value

variable {segment : String} {rest segments t : List String} {v w x old : Value}

/-! ## One step of a removal -/

/-- The end of a chain of segments lies in an object. -/
def EndsInObject (segments : List String) (v : Value) : Prop :=
  ∃ fields, descend? segments.dropLast v = some (object fields)

theorem endsInObject_cons (hne : rest ≠ []) : EndsInObject (segment :: rest) v ↔
    ∃ w, child? segment v = some w ∧ EndsInObject rest w := by
  have hdrop : (segment :: rest).dropLast = segment :: rest.dropLast :=
    List.dropLast_cons_of_ne_nil hne
  unfold EndsInObject
  rw [hdrop]
  simp only [descend?, Option.bind_eq_some_iff]
  constructor
  · rintro ⟨fields, w, hw, hfields⟩
    exact ⟨w, hw, fields, hfields⟩
  · rintro ⟨w, hw, fields, hfields⟩
    exact ⟨fields, w, hw, hfields⟩

/-- At its end a removal takes a field out of an object. -/
theorem remove?_singleton : remove? [segment] v = some (w, old) ↔
    ∃ fields, v = object fields ∧ Fields.get? fields segment = some old ∧
      w = object (Fields.erase fields segment) := by
  cases v with
  | object fields =>
      rw [remove?, Option.map_eq_some_iff]
      constructor
      · rintro ⟨held, hheld, heq⟩
        cases heq
        exact ⟨fields, rfl, hheld, rfl⟩
      · rintro ⟨_, ⟨⟩, hheld, rfl⟩
        exact ⟨old, hheld, rfl⟩
  | _ => simp [remove?]

/-- **One step of a removal.** What it makes of a child takes the place of that child. -/
theorem remove?_cons (hne : rest ≠ []) : remove? (segment :: rest) v = some (w, old) ↔
    ∃ child child', child? segment v = some child ∧ remove? rest child = some (child', old) ∧
      w = withChild segment child' v := by
  obtain ⟨next, rest, rfl⟩ := List.exists_cons_of_ne_nil hne
  cases v with
  | object fields =>
      rw [remove?]
      · simp only [Option.bind_eq_bind, Option.bind_eq_some_iff]
        constructor
        · rintro ⟨child, hchild, ⟨child', held⟩, hremove, heq⟩
          cases heq
          exact ⟨child, child', hchild, hremove, rfl⟩
        · rintro ⟨child, child', hchild, hremove, rfl⟩
          exact ⟨child, hchild, (child', old), hremove, rfl⟩
      · exact List.cons_ne_nil _ _
  | array items =>
      rw [remove?]
      simp only [Option.bind_eq_bind, Option.bind_eq_some_iff]
      constructor
      · rintro ⟨i, hindex, child, hchild, ⟨child', held⟩, hremove, heq⟩
        cases heq
        refine ⟨child, child', Option.bind_eq_some_iff.2 ⟨i, hindex, hchild⟩, hremove, ?_⟩
        rw [withChild_array hindex, padTo_of_lt (List.getElem?_eq_some_iff.1 hchild).1]
      · rintro ⟨child, child', hchild, hremove, rfl⟩
        obtain ⟨i, hindex, hi⟩ := Option.bind_eq_some_iff.1 hchild
        refine ⟨i, hindex, child, hi, (child', old), hremove, ?_⟩
        rw [withChild_array hindex, padTo_of_lt (List.getElem?_eq_some_iff.1 hi).1]
        rfl
  | _ => simp [remove?, child?]

/-! ## What can be removed -/

/-- **A removal gives what is found at the end of the path**, if an object holds it. -/
theorem exists_remove?_iff (hne : segments ≠ []) : (∃ w, remove? segments v = some (w, old)) ↔
    descend? segments v = some old ∧ EndsInObject segments v := by
  induction segments generalizing v with
  | nil => exact absurd rfl hne
  | cons segment rest ih =>
      by_cases hrest : rest = []
      · subst hrest
        simp only [remove?_singleton]
        constructor
        · rintro ⟨w, fields, rfl, hold, -⟩
          exact ⟨Option.bind_eq_some_iff.2 ⟨old, hold, rfl⟩, fields, rfl⟩
        · rintro ⟨hold, fields, hfields⟩
          cases hfields
          obtain ⟨held, hheld, heq⟩ := Option.bind_eq_some_iff.1 hold
          cases heq
          exact ⟨_, fields, rfl, hheld, rfl⟩
      · simp only [remove?_cons hrest, endsInObject_cons hrest, descend?,
          Option.bind_eq_some_iff]
        constructor
        · rintro ⟨w, child, child', hchild, hremove, -⟩
          obtain ⟨hold, hends⟩ := (ih hrest).1 ⟨child', hremove⟩
          exact ⟨⟨child, hchild, hold⟩, child, hchild, hends⟩
        · rintro ⟨⟨child, hchild, hold⟩, child', hchild', hends⟩
          cases hchild.symm.trans hchild'
          obtain ⟨child', hremove⟩ := (ih hrest).2 ⟨hold, hends⟩
          exact ⟨_, child, child', hchild, hremove, rfl⟩

/-! ## After a removal -/

theorem Everywhere.child? {L : Value → Prop} {N : List (String × Value) → Prop}
    (h : Everywhere L N v) (hw : Value.child? segment v = some w) : Everywhere L N w := by
  have hdown : Value.descend? [segment] v = some w := by
    rw [Value.descend?, hw]
    rfl
  exact h.descend? hdown

/-- **What was removed is not found any more.** -/
theorem descend?_remove? (hv : v.Distinct) (hne : segments ≠ [])
    (h : remove? segments v = some (w, old)) : descend? segments w = none := by
  induction segments generalizing v w with
  | nil => exact absurd rfl hne
  | cons segment rest ih =>
      by_cases hrest : rest = []
      · subst hrest
        obtain ⟨fields, rfl, -, rfl⟩ := remove?_singleton.1 h
        rw [descend?, child?, Fields.get?_erase_self hv.1, Option.bind_none]
      · obtain ⟨child, child', hchild, hremove, rfl⟩ := (remove?_cons hrest).1 h
        rw [descend?, child?_withChild_self (isSome_slot? hchild), Option.bind_some]
        exact ih (hv.child? hchild) hrest hremove

/-- **Paths that diverge** from the one that is removed lead where they did, or still nowhere. -/
theorem descend?_remove?_of_diverge (hpart : Diverge segments t v)
    (h : remove? segments v = some (w, old)) : descend? t w = descend? t v := by
  induction segments generalizing t v w with
  | nil => exact absurd rfl hpart.ne_nil
  | cons segment rest ih =>
      by_cases hrest : rest = []
      · subst hrest
        obtain ⟨fields, rfl, -, rfl⟩ := remove?_singleton.1 h
        cases hpart with
        | @here _ other _ q _ hslot =>
            have hname : other ≠ segment := by
              rintro rfl
              exact hslot rfl
            rw [descend?, descend?, child?, child?, Fields.get?_erase_of_ne fields hname]
        | deeper hslot hchild hpq => exact absurd rfl hpq.ne_nil
      · obtain ⟨child, child', hchild, hremove, rfl⟩ := (remove?_cons hrest).1 h
        cases hpart with
        | here hslot => rw [descend?, descend?, child?_withChild_of_child? hchild hslot]
        | @deeper _ other _ q _ child₁ hslot hchild₁ hpq =>
            cases hchild.symm.trans hchild₁
            -- The other path goes through the same child, in whatever spelling.
            have hbefore : child? other v = some child :=
              (child?_eq_of_slot? hslot).symm.trans hchild
            have hafter := child?_withChild_of_eq (w := child') hslot (isSome_slot? hchild)
            rw [descend?, descend?, hafter, hbefore]
            exact ih hpq hremove

/-- **Objects on the way keep their fields in order**, but for the one that is removed. -/
theorem names_remove? {way : List String} {name : String} {fields : Fields Value}
    (hway : way ++ [name] <+: segments) (h : remove? segments v = some (w, old))
    (hfields : descend? way v = some (object fields)) :
    ∃ fields', descend? way w = some (object fields') ∧ Fields.keys fields' =
      if way ++ [name] = segments then (Fields.keys fields).erase name else Fields.keys fields := by
  induction way generalizing segments v w with
  | nil =>
      cases hfields
      cases segments with
      | nil => exact absurd (List.prefix_nil.1 hway) (List.cons_ne_nil _ _)
      | cons segment rest =>
          obtain ⟨rfl, -⟩ := List.cons_prefix_cons.1 hway
          by_cases hrest : rest = []
          · subst hrest
            obtain ⟨_, ⟨⟩, -, rfl⟩ := remove?_singleton.1 h
            exact ⟨_, rfl, (Fields.keys_erase _ _).trans (if_pos rfl).symm⟩
          · obtain ⟨child, child', hchild, -, rfl⟩ := (remove?_cons hrest).1 h
            -- The removal goes on below a field that is there, so that field keeps its place.
            have hmem : name ∈ Fields.keys fields := Fields.mem_keys (Fields.mem_of_get? hchild)
            refine ⟨_, rfl, (Fields.keys_insert_of_mem hmem child').trans (if_neg ?_).symm⟩
            rintro ⟨⟩
            exact hrest rfl
  | cons first way ih =>
      cases segments with
      | nil => exact absurd (List.prefix_nil.1 hway) (List.cons_ne_nil _ _)
      | cons segment rest =>
          obtain ⟨rfl, hway'⟩ := List.cons_prefix_cons.1 hway
          have hrest : rest ≠ [] := by
            rintro rfl
            exact absurd (List.prefix_nil.1 hway') (by simp)
          obtain ⟨child, child', hchild, hremove, rfl⟩ := (remove?_cons hrest).1 h
          obtain ⟨child₁, hchild₁, hdown⟩ := Option.bind_eq_some_iff.1 hfields
          cases hchild.symm.trans hchild₁
          obtain ⟨fields', hdescend, hkeys⟩ := ih hway' hremove hdown
          refine ⟨fields', ?_, ?_⟩
          · rw [descend?, child?_withChild_self (isSome_slot? hchild)]
            exact hdescend
          · rw [hkeys]
            simp only [List.cons_append, List.cons.injEq, true_and]

/-! ## Writing and removing -/

/-- **A new field of an object that is removed again leaves no trace.** -/
theorem remove?_write (path : String) (x : Value) (hne : segments ≠ [])
    (hnone : descend? segments v = none) (hends : EndsInObject segments v) :
    ∃ w, write path x segments v = (w, none) ∧ remove? segments w = some (v, x) := by
  induction segments generalizing v with
  | nil => exact absurd rfl hne
  | cons segment rest ih =>
      by_cases hrest : rest = []
      · subst hrest
        obtain ⟨fields, hfields⟩ := hends
        cases hfields
        have hget : Fields.get? fields segment = none := by
          simpa [descend?, child?] using hnone
        refine ⟨object (Fields.insert fields segment x), rfl, remove?_singleton.2 ?_⟩
        exact ⟨_, rfl, Fields.get?_insert_self fields segment x,
          congrArg object (Fields.erase_insert_of_get?_none hget x).symm⟩
      · obtain ⟨child, hchild, hends'⟩ := (endsInObject_cons hrest).1 hends
        have hbelow : descend? rest child = none := by
          rw [descend?, hchild] at hnone
          exact hnone
        obtain ⟨child', hwrite, hremove⟩ := ih hrest hbelow hends'
        obtain ⟨fields, hfields⟩ := hends'
        have hpassage := passage_of_descend? hchild hfields
        have hstep : writeChild path x segment rest v = (child', none) := by
          rw [writeChild, if_neg hrest, hpassage, hwrite]
        -- The removal puts back the child that was there, which is no change.
        refine ⟨withChild segment child' v, ?_, (remove?_cons hrest).2 ?_⟩
        · rw [write_cons_of_child? hchild, hstep]
        · refine ⟨child', child, child?_withChild_self (isSome_slot? hchild), hremove, ?_⟩
          rw [withChild_withChild hchild, withChild_self hchild]

/-! ## Removals in turn -/

theorem kind_withChild : (withChild segment w v).kind = v.kind := by
  cases v with
  | array items =>
      rw [withChild]
      split <;> rfl
  | _ => rfl

/-- A removal makes nothing that was not there, and leaves everything of the kind that it was. -/
theorem exists_descend?_of_remove? (hv : v.Distinct) (h : remove? segments v = some (w, old))
    (hx : descend? t w = some x) : ∃ y, descend? t v = some y ∧ y.kind = x.kind := by
  induction segments generalizing t v w with
  | nil => cases v <;> cases h
  | cons segment rest ih =>
      by_cases hrest : rest = []
      · subst hrest
        obtain ⟨fields, rfl, -, rfl⟩ := remove?_singleton.1 h
        cases t with
        | nil =>
            cases hx
            exact ⟨_, rfl, rfl⟩
        | cons first t =>
            obtain ⟨child, hchild, hdown⟩ := Option.bind_eq_some_iff.1 hx
            have hname : first ≠ segment := by
              rintro rfl
              have hget : Fields.get? (Fields.erase fields first) first = some child := hchild
              rw [Fields.get?_erase_self hv.1] at hget
              cases hget
            refine ⟨x, Option.bind_eq_some_iff.2 ⟨child, ?_, hdown⟩, rfl⟩
            exact (Fields.get?_erase_of_ne fields hname).symm.trans hchild
      · obtain ⟨child, child', hchild, hremove, rfl⟩ := (remove?_cons hrest).1 h
        cases t with
        | nil =>
            cases hx
            exact ⟨v, rfl, kind_withChild.symm⟩
        | cons first t =>
            obtain ⟨found, hfound, hdown⟩ := Option.bind_eq_some_iff.1 hx
            by_cases hslot : slot? segment v = slot? first v
            · -- The path goes through the child that has changed.
              cases (child?_withChild_of_eq hslot (isSome_slot? hchild)).symm.trans hfound
              obtain ⟨y, hy, hkind⟩ := ih (hv.child? hchild) hremove hdown
              refine ⟨y, Option.bind_eq_some_iff.2 ⟨child, ?_, hy⟩, hkind⟩
              exact (child?_eq_of_slot? hslot).symm.trans hchild
            · rw [child?_withChild_of_child? hchild hslot] at hfound
              exact ⟨x, Option.bind_eq_some_iff.2 ⟨found, hfound, hdown⟩, rfl⟩

theorem EndsInObject.of_remove? (hv : v.Distinct) (h : remove? segments v = some (w, old))
    (ht : EndsInObject t w) : EndsInObject t v := by
  obtain ⟨fields, hfields⟩ := ht
  obtain ⟨y, hy, hkind⟩ := exists_descend?_of_remove? hv h hfields
  cases y with
  | object fields' => exact ⟨fields', hy⟩
  | _ => cases hkind

/-- **What cannot be removed before a removal cannot be removed after it.** -/
theorem remove?_eq_none_of_remove? (hv : v.Distinct) (h : remove? segments v = some (w, old))
    (ht : t ≠ []) (hnone : remove? t v = none) : remove? t w = none := by
  refine Option.eq_none_iff_forall_ne_some.2 ?_
  rintro ⟨w', x⟩ hremove
  obtain ⟨hx, hends⟩ := (exists_remove?_iff ht).1 ⟨w', hremove⟩
  obtain ⟨y, hy, -⟩ := exists_descend?_of_remove? hv h hx
  obtain ⟨w'', hfirst⟩ := (exists_remove?_iff ht).2 ⟨hy, hends.of_remove? hv h⟩
  rw [hnone] at hfirst
  cases hfirst

/-- What was removed cannot be removed again. -/
theorem remove?_eq_none_self (hv : v.Distinct) (hne : segments ≠ [])
    (h : remove? segments v = some (w, old)) : remove? segments w = none := by
  refine Option.eq_none_iff_forall_ne_some.2 ?_
  rintro ⟨w', x⟩ hremove
  have hx := ((exists_remove?_iff hne).1 ⟨w', hremove⟩).1
  rw [descend?_remove? hv hne h] at hx
  cases hx

end Value

/-! ## Removing at a path of an object -/

namespace Fields

open Value (EndsInObject Diverge descend?)

variable {m m' : Fields Value} {path : String} {v : Value}

/-- A removal at a path of an object, by its segments. -/
theorem erasePath_cases (m : Fields Value) (path : String) :
    Value.remove? (Segments.ofPath path) (.object m) = none ∧ erasePath m path = (m, none) ∨
      ∃ m' old, Value.remove? (Segments.ofPath path) (.object m) = some (.object m', old) ∧
        erasePath m path = (m', some old) := by
  obtain ⟨rest, hrest⟩ := ofPath_eq_top_cons path
  rw [erasePath, hrest]
  cases h : Value.remove? (Segments.top path :: rest) (.object m) with
  | none => exact .inl ⟨rfl, rfl⟩
  | some result =>
      obtain ⟨w, old⟩ := result
      rcases Value.remove?_object h with rfl | ⟨u, rfl⟩
      · exact .inr ⟨_, old, rfl, rfl⟩
      · exact .inr ⟨_, old, rfl, rfl⟩

/-- **A path that is removed stays removed**: there is nothing to remove at it any more. -/
theorem remove?_erasePath_self (hm : (Value.object m).Distinct) (path : String) :
    Value.remove? (Segments.ofPath path) (.object (erasePath m path).1) = none := by
  rcases erasePath_cases m path with ⟨hnone, hsame⟩ | ⟨m', old, hremove, herase⟩
  · rw [hsame]
    exact hnone
  · rw [herase]
    exact Value.remove?_eq_none_self hm (Segments.ofPath_ne_nil path) hremove

/-- Removing at a path makes nothing that could be removed at another. -/
theorem remove?_erasePath_of_none (hm : (Value.object m).Distinct) {t : List String} (ht : t ≠ [])
    (h : Value.remove? t (.object m) = none) (path : String) :
    Value.remove? t (.object (erasePath m path).1) = none := by
  rcases erasePath_cases m path with ⟨-, hsame⟩ | ⟨m', old, hremove, herase⟩
  · rw [hsame]
    exact h
  · rw [herase]
    exact Value.remove?_eq_none_of_remove? hm hremove ht h

/-- What the fields are after what a path leads to is removed. -/
structure Erased (m m' : Fields Value) (path : String) : Prop where
  /-- The path leads nowhere. -/
  gone : getPath? m' path = none
  /-- A path that names another slot on the way leads where it did. -/
  others : ∀ other, Diverge (Segments.ofPath path) (Segments.ofPath other) (.object m) →
    getPath? m' other = getPath? m other
  /-- The fields of objects on the way keep their order, without the one that is removed. -/
  names : ∀ way name fields, way ++ [name] <+: Segments.ofPath path →
    descend? way (.object m) = some (.object fields) →
      ∃ fields', descend? way (.object m') = some (.object fields') ∧ keys fields' =
        if way ++ [name] = Segments.ofPath path then (keys fields).erase name else keys fields

/-- **Removing at a path.** The removal gives what the path leads to, if that is a field of an
object; then it is gone and nothing else changes. Otherwise nothing changes at all. A new field that
is written into an object and removed again leaves no trace. -/
theorem erased_erasePath (hm : (Value.object m).Distinct) (path : String) :
    (∀ old, (erasePath m path).2 = some old ↔ getPath? m path = some old ∧
        EndsInObject (Segments.ofPath path) (.object m)) ∧
      ((erasePath m path).2 ≠ none → Erased m (erasePath m path).1 path) ∧
      ((erasePath m path).2 = none → (erasePath m path).1 = m) ∧
      (EndsInObject (Segments.ofPath path) (.object m) → getPath? m path = none →
        ∀ v, ∃ m', setPath m path v = (m', none) ∧ erasePath m' path = (m, some v)) := by
  have hne := Segments.ofPath_ne_nil path
  refine ⟨fun old => ?_, fun h => ?_, fun h => ?_, fun hends hnone v => ?_⟩
  · refine Iff.trans ?_ (Value.exists_remove?_iff hne)
    rcases erasePath_cases m path with ⟨hremove, herase⟩ | ⟨m', held, hremove, herase⟩
    · simp [hremove, herase]
    · simp [hremove, herase]
  · rcases erasePath_cases m path with ⟨-, herase⟩ | ⟨m', old, hremove, herase⟩
    · rw [herase] at h
      exact absurd rfl h
    · rw [herase]
      exact {
        gone := Value.descend?_remove? hm hne hremove
        others := fun other hpart => Value.descend?_remove?_of_diverge hpart hremove
        names := fun way name fields hway hfields => Value.names_remove? hway hremove hfields }
  · rcases erasePath_cases m path with ⟨-, herase⟩ | ⟨m', old, -, herase⟩
    · rw [herase]
    · rw [herase] at h
      cases h
  · obtain ⟨w, hwrite, hremove⟩ := Value.remove?_write path v hne hnone hends
    rw [object_setPath] at hwrite
    obtain ⟨rfl, hdone⟩ := Prod.mk.inj hwrite
    refine ⟨(setPath m path v).1, Prod.ext rfl hdone, ?_⟩
    rcases erasePath_cases (setPath m path v).1 path with ⟨hagain, -⟩ | ⟨m', old, hagain, herase⟩
    · rw [hremove] at hagain
      cases hagain
    · rw [hremove] at hagain
      cases hagain
      exact herase

/-- A field of an item can be removed, the item itself cannot. -/
theorem erased_erasePath_tags :
    let pet : Fields Value := [("_id", .int 1),
      ("tags", .array [.object [("name", .string "dog"), ("rank", .int 2)], .null])]
    (Value.object pet).Distinct ∧
      (erasePath pet "tags.0.name").2 = some (.string "dog") ∧
      Erased pet (erasePath pet "tags.0.name").1 "tags.0.name" ∧
      (erasePath pet "tags.0").2 = none ∧
      ∃ m', setPath pet "tags.0.seen" (.int 3) = (m', none) ∧
        erasePath m' "tags.0.seen" = (pet, some (.int 3)) := by
  intro pet
  have hname : Segments.ofPath "tags.0.name" = ["tags", "0", "name"] := by decide
  have hitem : Segments.ofPath "tags.0" = ["tags", "0"] := by decide
  have hseen : Segments.ofPath "tags.0.seen" = ["tags", "0", "seen"] := by decide
  have hpet : (Value.object pet).Distinct :=
    ⟨by decide, trivial, ⟨⟨by decide, trivial, trivial, trivial⟩, trivial, trivial⟩, trivial⟩
  have hremoved : (erasePath pet "tags.0.name").2 = some (.string "dog") := by
    rw [erasePath, hname]
    rfl
  obtain ⟨-, herased, -, -⟩ := erased_erasePath hpet "tags.0.name"
  obtain ⟨-, -, -, hback⟩ := erased_erasePath hpet "tags.0.seen"
  refine ⟨hpet, hremoved, herased (hremoved ▸ Option.some_ne_none _), ?_, hback ?_ ?_ _⟩
  · rw [erasePath, hitem]
    rfl
  · rw [hseen]
    exact ⟨_, rfl⟩
  · rw [getPath?, Value.getPath?, hseen]
    rfl

end Fields

end DocStore
