import DocStore.Proofs.Value.Written

/-!
# Looking up and filling places

A path can be followed from the field of its first segment on, which finds what the whole path
finds: `Fields.lookup?_eq`. The place that a path leads to holds that as well, and filling it is
writing at the path: `Fields.setPath?_of_place?`. Such a write makes nothing on its way: the value
at the end of the path gives way to the new one, and all else is as it was, be it there or missing
(`Fields.replaced_of_getPath?`).
-/

set_option autoImplicit false

namespace DocStore

open Value (withChild write descend?)

variable {m : Fields Value} {path segment : String} {rest : List String}

/-- Where something lies further down, a write does not replace the child that it goes through. -/
theorem Value.fst_writeChild (path : String) {v w x : Value} (u : Value)
    (hchild : Value.child? segment v = some w) (hdown : descend? rest w = some x) :
    (writeChild path u segment rest v).1 =
      if rest = [] then u else (write path u rest w).1 := by
  cases rest with
  | nil => rfl
  | cons next rest =>
      have hne : w ≠ null := by
        rintro rfl
        cases hdown
      rw [writeChild_cons, passage_of_child? hchild hne, if_neg (List.cons_ne_nil next rest)]

/-! ## Going down -/

namespace Place

variable {p q : Place}

/-- The place of a child, filled, puts the child back into its parent. -/
theorem child?_eq (p : Place) (segment : String) : p.child? segment =
    (Value.child? segment p.held).map fun v =>
      { held := v, put := fun w => p.put (withChild segment w p.held) } := by
  unfold child?
  cases hheld : p.held with
  | object fields => rfl
  | array items =>
      show ((Segments.index? segment).bind fun i => (items[i]?).bind fun v => some _) = _
      cases hindex : Segments.index? segment with
      | none => simp [Value.child?, hindex]
      | some i =>
          cases hi : items[i]? with
          | none => simp [Value.child?, hindex, hi]
          | some v =>
              have hlt : i < items.length := (List.getElem?_eq_some_iff.1 hi).1
              simp [Value.child?, hindex, hi, Value.withChild_array hindex, Value.padTo_of_lt hlt]
  | _ => rfl

theorem child?_eq_some (h : p.child? segment = some q) :
    Value.child? segment p.held = some q.held ∧
      ∀ w, q.put w = p.put (withChild segment w p.held) := by
  rw [child?_eq, Option.map_eq_some_iff] at h
  obtain ⟨v, hv, rfl⟩ := h
  exact ⟨hv, fun w => rfl⟩

/-- **Going down from a place** finds what a chain of segments finds in it. -/
theorem map_held_foldlM (p : Place) (rest : List String) :
    (rest.foldlM child? p).map held = descend? rest p.held := by
  induction rest generalizing p with
  | nil => rfl
  | cons segment rest ih =>
      rw [List.foldlM_cons, child?_eq, descend?]
      cases Value.child? segment p.held with
      | none => rfl
      | some v => exact ih _

theorem descend?_of_foldlM (h : rest.foldlM child? p = some q) :
    descend? rest p.held = some q.held := by
  rw [← map_held_foldlM, h, Option.map_some]

/-- **Filling a place further down** is writing at the chain of segments that leads there. -/
theorem put_of_foldlM (h : rest.foldlM child? p = some q) (path : String) (w : Value) :
    q.put w = p.put (if rest = [] then w else (write path w rest p.held).1) := by
  induction rest generalizing p with
  | nil =>
      cases h
      rfl
  | cons segment rest ih =>
      rw [List.foldlM_cons] at h
      obtain ⟨p₁, hchild, hrest⟩ := Option.bind_eq_some_iff.1 h
      obtain ⟨hheld, hput⟩ := child?_eq_some hchild
      have hbelow := Value.fst_writeChild path w hheld (descend?_of_foldlM hrest)
      rw [ih hrest, hput, if_neg (List.cons_ne_nil segment rest),
        Value.write_cons_of_child? hheld, hbelow]

/-- A place that is filled with what it holds stays as it is. -/
theorem put_held_of_foldlM (h : rest.foldlM child? p = some q) :
    q.put q.held = p.put p.held := by
  induction rest generalizing p with
  | nil =>
      cases h
      rfl
  | cons segment rest ih =>
      rw [List.foldlM_cons] at h
      obtain ⟨p₁, hchild, hrest⟩ := Option.bind_eq_some_iff.1 h
      obtain ⟨hheld, hput⟩ := child?_eq_some hchild
      rw [ih hrest, hput, Value.withChild_self hheld]

end Place

/-! ## Cutting a path at its first dot -/

namespace Segments

theorem split_of_dropWhile_eq_nil {cs : List Char} (h : cs.dropWhile (· != '.') = []) :
    split cs = [cs] := by
  induction cs with
  | nil => rfl
  | cons c cs ih =>
      rw [List.dropWhile_cons] at h
      split at h
      · rename_i hc
        rw [split, if_neg (by simpa using hc), ih h]
      · cases h

theorem split_of_dropWhile_eq_cons {c : Char} {cs behind : List Char}
    (h : cs.dropWhile (· != '.') = c :: behind) :
    split cs = cs.takeWhile (· != '.') :: split behind := by
  induction cs with
  | nil => cases h
  | cons d cs ih =>
      rw [List.dropWhile_cons] at h
      split at h
      · rename_i hd
        rw [split, if_neg (by simpa using hd), ih h, List.takeWhile_cons, if_pos hd]
      · rename_i hd
        obtain ⟨rfl, rfl⟩ := List.cons.inj h
        rw [List.takeWhile_cons, if_neg hd, split, if_pos (by simpa using hd)]

/-- A path without a dot is a segment. -/
theorem ofPath_of_cut?_eq_none (h : cut? path = none) : ofPath path = [path] := by
  unfold cut? at h
  split at h
  · rename_i hnil
    rw [ofPath, split_of_dropWhile_eq_nil hnil, List.map_singleton, String.ofList_toList]
  · cases h

/-- A path is the text before its first dot and the segments behind it. -/
theorem ofPath_of_cut?_eq_some {first behind : String} (h : cut? path = some (first, behind)) :
    ofPath path = first :: ofPath behind := by
  unfold cut? at h
  split at h
  · cases h
  · rename_i hcons
    obtain ⟨rfl, rfl⟩ := Prod.mk.inj (Option.some.inj h)
    rw [ofPath, split_of_dropWhile_eq_cons hcons, List.map_cons, ofPath, String.toList_ofList]

end Segments

/-- **Looking up from the first field on** finds what the path finds. -/
theorem Fields.lookup?_eq (m : Fields Value) (path : String) :
    lookup? m path = getPath? m path := by
  unfold lookup?
  split
  · rename_i hcut
    rw [getPath?, Value.getPath?, Segments.ofPath_of_cut?_eq_none hcut]
    exact (Option.bind_fun_some _).symm
  · rename_i first behind hcut
    rw [getPath?, Value.getPath?, Segments.ofPath_of_cut?_eq_some hcut]
    rfl

/-! ## The place of a path -/

namespace Fields

theorem place?_eq (hpath : Segments.ofPath path = segment :: rest) : place? m path =
    (get? m segment).bind fun v =>
      rest.foldlM Place.child? { held := v, put := insert m segment } := by
  rw [place?, hpath]
  rfl

/-- **A place holds what its path finds**, and there is none if the path finds nothing. -/
theorem map_held_place? (m : Fields Value) (path : String) :
    (place? m path).map Place.held = getPath? m path := by
  obtain ⟨rest, hrest⟩ := ofPath_eq_top_cons path
  rw [place?_eq hrest, getPath?, Value.getPath?, hrest, descend?, Value.child?]
  cases get? m (Segments.top path) with
  | none => rfl
  | some v => exact Place.map_held_foldlM _ rest

theorem getPath?_of_place? {p : Place} (h : place? m path = some p) :
    getPath? m path = some p.held := by
  rw [← map_held_place?, h, Option.map_some]

theorem place?_of_getPath? {v : Value} (h : getPath? m path = some v) :
    ∃ p, place? m path = some p ∧ p.held = v := by
  rw [← map_held_place?] at h
  exact Option.map_eq_some_iff.1 h

theorem place?_eq_none (h : getPath? m path = none) : place? m path = none := by
  rw [← map_held_place?] at h
  exact Option.map_eq_none_iff.1 h

/-- **Filling the place of a path is writing at the path.** -/
theorem setPath?_of_place? {p : Place} (h : place? m path = some p) (w : Value) :
    setPath? m path w = .ok (p.put w) := by
  obtain ⟨rest, hrest⟩ := ofPath_eq_top_cons path
  have hdone : (write path w (Segments.ofPath path) (.object m)).2 = none :=
    Value.write_of_descend? w (getPath?_of_place? h)
  rw [place?_eq hrest] at h
  obtain ⟨v, hv, hdown⟩ := Option.bind_eq_some_iff.1 h
  have hchild : Value.child? (Segments.top path) (.object m) = some v := hv
  have hnew : (write path w (Segments.ofPath path) (.object m)).1 = .object (p.put w) := by
    rw [hrest, Value.write_cons_of_child? hchild, Place.put_of_foldlM hdown path w,
      Value.fst_writeChild path w hchild (Place.descend?_of_foldlM hdown)]
    rfl
  exact setPath?_eq (Prod.ext hnew hdone)

/-- Writing what a path finds at the path changes nothing. -/
theorem setPath?_self {v : Value} (h : getPath? m path = some v) : setPath? m path v = .ok m := by
  obtain ⟨p, hp, rfl⟩ := place?_of_getPath? h
  obtain ⟨rest, hrest⟩ := ofPath_eq_top_cons path
  have hdown := hp
  rw [place?_eq hrest] at hdown
  obtain ⟨v, hv, hdown⟩ := Option.bind_eq_some_iff.1 hdown
  rw [setPath?_of_place? hp, Place.put_held_of_foldlM hdown]
  exact congrArg Except.ok (insert_of_get? hv)

end Fields

/-! ## Giving way -/

namespace Value

variable {segments way : List String} {v w x old : Value}

theorem descend?_append (way behind : List String) (v : Value) :
    descend? (way ++ behind) v = (descend? way v).bind (descend? behind) := by
  induction way generalizing v with
  | nil => rfl
  | cons segment way ih =>
      rw [List.cons_append, descend?, descend?, Option.bind_assoc]
      exact Option.bind_congr fun w _ => ih w

/-- A path that leads somewhere leads through fields that are there. -/
theorem mem_keys_of_descend? {name : String} {fields : Fields Value}
    (hway : way ++ [name] <+: segments) (hx : descend? segments old = some x)
    (hfields : descend? way old = some (object fields)) : name ∈ Fields.keys fields := by
  obtain ⟨behind, rfl⟩ := hway
  rw [List.append_assoc, descend?_append, hfields] at hx
  obtain ⟨w, hw, -⟩ : ∃ w, Fields.get? fields name = some w ∧ descend? behind w = some x :=
    Option.bind_eq_some_iff.1 hx
  exact Fields.mem_keys (Fields.mem_of_get? hw)

/-- A write goes on in the child that is there. -/
theorem fst_write_cons (path : String) (v : Value) (hchild : child? segment old = some w)
    (hdown : descend? rest w = some x) : (write path v (segment :: rest) old).1 =
      withChild segment (if rest = [] then v else (write path v rest w).1) old := by
  rw [write_cons_of_child? hchild, fst_writeChild path v hchild hdown]

/-- **Other paths find what they found**, or find nothing still. -/
theorem descend?_write_eq (hpart : Diverge segments way old) (hx : descend? segments old = some x) :
    descend? way (write path v segments old).1 = descend? way old := by
  induction segments generalizing way old with
  | nil => exact absurd rfl hpart.ne_nil
  | cons segment rest ih =>
      obtain ⟨child, hchild, hdown⟩ := Option.bind_eq_some_iff.1 hx
      rw [fst_write_cons path v hchild hdown]
      -- The other path goes on in another child, or parts from this one further down.
      cases hpart with
      | @here _ other _ q _ hslot =>
          rw [descend?, descend?, child?_withChild_of_child? hchild hslot]
      | @deeper _ other _ q _ child' hslot hchild' hpq =>
          cases hchild.symm.trans hchild'
          have hother : child? other old = some child :=
            (child?_eq_of_slot? hslot).symm.trans hchild
          rw [descend?, descend?, child?_withChild_of_eq hslot (isSome_slot? hchild), hother,
            if_neg hpq.ne_nil]
          exact ih hpq hdown

/-- What gave way, written again, restores what was there. -/
theorem write_write (hne : segments ≠ []) (hx : descend? segments old = some x) :
    (write path x segments (write path v segments old).1).1 = old := by
  induction segments generalizing old with
  | nil => exact absurd rfl hne
  | cons segment rest ih =>
      obtain ⟨child, hchild, hdown⟩ := Option.bind_eq_some_iff.1 hx
      have hfound : descend? (segment :: rest) (write path v (segment :: rest) old).1 = some v :=
        descend?_write (List.cons_ne_nil segment rest) (write_of_descend? v hx)
      -- The path leads to `v` now, so that the second write goes the same way as the first.
      rw [fst_write_cons path v hchild hdown] at hfound ⊢
      have hself := child?_withChild_self (isSome_slot? hchild)
        (w := if rest = [] then v else (write path v rest child).1)
      rw [descend?, hself, Option.bind_some] at hfound
      rw [fst_write_cons path x hself hfound, withChild_withChild hchild]
      have hback : (if rest = [] then x else (write path x rest
          (if rest = [] then v else (write path v rest child).1)).1) = child := by
        cases rest with
        | nil => exact (Option.some.inj hdown).symm
        | cons next rest => exact ih (List.cons_ne_nil next rest) hdown
      rw [hback, withChild_self hchild]

end Value

namespace Fields

variable {m' : Fields Value} {v old : Value}

open Value (Diverge descend?)

/-- What the fields are after the value that a path leads to has given way to another one. Other
places are given by the chains of segments that lead there. -/
structure Replaced (m m' : Fields Value) (path : String) (v : Value) : Prop where
  /-- The path leads to the new value. -/
  found : getPath? m' path = some v
  /-- Whatever lies elsewhere is as it was, and nothing else is there. -/
  others : ∀ way, Diverge (Segments.ofPath path) way (.object m) →
    descend? way (.object m') = descend? way (.object m)
  /-- Objects on the way have the same fields in the same order. -/
  names : ∀ way name fields, way ++ [name] <+: Segments.ofPath path →
    descend? way (.object m) = some (.object fields) →
      ∃ fields', descend? way (.object m') = some (.object fields') ∧ keys fields' = keys fields
  /-- What gave way can be put back. -/
  restored : ∀ old, getPath? m path = some old → setPath? m' path old = .ok m

/-- **A value gives way to another one**, and all else stays as it is. -/
theorem replaced_of_getPath? (h : getPath? m path = some old) (v : Value) :
    ∃ m', setPath? m path v = .ok m' ∧ Replaced m m' path v := by
  obtain ⟨m', hset⟩ := exists_setPath? h v
  have hwrite := write_of_setPath? hset
  have hnew : (Value.write path v (Segments.ofPath path) (.object m)).1 = .object m' :=
    congrArg Prod.fst hwrite
  have hfound := getPath?_setPath? hset
  refine ⟨m', hset, hfound, fun way hpart => ?_, fun way name fields hway hfields => ?_, ?_⟩
  · rw [← hnew]
    exact Value.descend?_write_eq hpart h
  · obtain ⟨fields', hfields', hkeys⟩ :=
      Value.names_write hway (congrArg Prod.snd hwrite) hfields
    rw [hnew] at hfields'
    exact ⟨fields', hfields', hkeys.trans (if_pos (Value.mem_keys_of_descend? hway h hfields))⟩
  · intro old' hold
    obtain rfl : old = old' := Option.some.inj (h.symm.trans hold)
    have hback : (Value.write path old (Segments.ofPath path)
        (Value.write path v (Segments.ofPath path) (.object m)).1).1 = .object m :=
      Value.write_write (Segments.ofPath_ne_nil path) h
    have hdone : (Value.write path old (Segments.ofPath path) (.object m')).2 = none :=
      Value.write_of_descend? old hfound
    rw [hnew] at hback
    exact setPath?_eq (Prod.ext hback hdone)

end Fields

end DocStore
