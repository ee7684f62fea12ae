import DocStore.Proofs.Query.Chains
import DocStore.Proofs.Query.Dropped

/-!
# Projecting twice

A projection of a projected document changes nothing: `Projection.apply_apply`. What is left out
cannot be removed again. What is kept is reached by the same chains of segments as before, so that
they keep all of it, in the same order: `Projection.settled`.
-/

set_option autoImplicit false

namespace DocStore

namespace Projection

open Value (Everywhere EverywhereFields DistinctNames)

/-! ## Parts of parts -/

section Parts

variable {segment : String} {next : Value → Option Value}

theorem partItems_append (as bs : List Value) :
    partItems segment next (as ++ bs) = partItems segment next as ++ partItems segment next bs := by
  induction as with
  | nil => rfl
  | cons v rest ih => rw [List.cons_append, partItems, partItems, ih, List.append_assoc]

mutual

theorem part_part (hnext : ∀ w x, next w = some x → next x = some x) :
    ∀ (v u : Value), part segment next v = some u → part segment next u = some u
  | .object m, u, h => by
    obtain ⟨below, hbelow, rfl⟩ := Option.map_eq_some_iff.1 h
    obtain ⟨w, -, hw⟩ := Option.bind_eq_some_iff.1 hbelow
    rw [part, Fields.get?, if_pos rfl, Option.bind_some, hnext w below hw, Option.map_some]
  | .array items, u, h => by
    cases h
    rw [part, partItems_partItems hnext items]
  | .null, _, h | .bool _, _, h | .int _, _, h | .float _, _, h | .string _, _, h
  | .date _, _, h => by cases h

theorem partItems_partItems (hnext : ∀ w x, next w = some x → next x = some x) :
    ∀ items : List Value,
      partItems segment next (partItems segment next items) = partItems segment next items
  | [] => rfl
  | v :: rest => by
    rw [partItems, partItems_append, partItems_partItems hnext rest]
    cases h : part segment next v with
    | none => rfl
    | some u =>
        rw [Option.toList_some, partItems, part_part hnext v u h]
        rfl

end

end Parts

/-- **The part of a part** along the same chain is that part. -/
theorem partAlong_partAlong (s : List String) (v u : Value) (h : partAlong s v = some u) :
    partAlong s u = some u := by
  induction s generalizing v u with
  | nil =>
      cases h
      rfl
  | cons segment rest ih => exact part_part ih v u h

/-! ## Keeping again -/

variable {m m' out out' : Fields Value} {v u : Value}
variable {chains : List (List String)} {s : List String}

theorem isSome_partAlong_object (segment : String) (rest : List String) (m : Fields Value) :
    (partAlong (segment :: rest) (.object m)).isSome =
      ((Fields.get? m segment).bind (partAlong rest)).isSome := by
  rw [partAlong, part, Option.isSome_map]

/-- A chain that goes through a field reaches something in what was kept iff it does so in the
object, if the rest of the chain does so below the field. -/
theorem isSome_bind_keepFields (hm : (Value.object m).Distinct) {segment : String}
    {rest : List String}
    (hrest : ∀ {w x : Value} {chains : List (List String)}, w.Distinct →
      keepParts w chains none = some x → rest ∈ chains →
        (partAlong rest x).isSome = (partAlong rest w).isSome)
    (hs : segment :: rest ∈ chains) :
    ((Fields.get? (keepFields m chains []) segment).bind (partAlong rest)).isSome =
      ((Fields.get? m segment).bind (partAlong rest)).isSome := by
  have hmem : rest ∈ chains.filterMap (tailAt segment) :=
    List.mem_filterMap.2 ⟨segment :: rest, hs, if_pos rfl⟩
  rw [get?_keepFields hm.1]
  cases hget : Fields.get? m segment with
  | none => rfl
  | some w =>
      rw [Option.elim_some, Fields.get?_nil, Option.bind_some]
      cases hkept : keepParts w (chains.filterMap (tailAt segment)) none with
      | none => rw [keepParts_eq_none_iff.1 hkept rest hmem, Option.bind_none]
      | some x =>
          rw [Option.bind_some]
          exact hrest (Everywhere.field hm.2 hget) hkept hmem

/-- **What was kept is reached as before**: a chain along which a value was kept reaches something
in what was kept iff it does so in the value. -/
theorem isSome_partAlong_kept (hv : v.Distinct) (h : keepParts v chains none = some u)
    (hs : s ∈ chains) : (partAlong s u).isSome = (partAlong s v).isSome := by
  induction s generalizing v u chains with
  | nil => rfl
  | cons segment rest ih =>
      cases v with
      | object m =>
          obtain rfl := eq_object_of_keepParts hv.1 h
          rw [isSome_partAlong_object, isSome_partAlong_object]
          exact isSome_bind_keepFields hv ih hs
      | array items =>
          obtain ⟨-, -, parts, -, -, rfl⟩ := exists_last_of_keepParts_array h
          rfl
      | _ =>
          rcases eq_of_keepParts_scalar rfl h with rfl | hnone
          · rfl
          · cases hnone

/-- **Fields are reached in the same order again**, if each chain reaches something in the object
iff it does so in what was kept. -/
theorem keys_keepFields_again (hm : DistinctNames m) (hm' : DistinctNames m')
    (hreach : ∀ segment rest, segment :: rest ∈ chains →
      ((Fields.get? m' segment).bind (partAlong rest)).isSome =
        ((Fields.get? m segment).bind (partAlong rest)).isSome)
    (hout : Fields.keys out' = Fields.keys out) (hkept : keepFields m chains out = m') :
    Fields.keys (keepFields m' chains out') = Fields.keys m' := by
  induction chains generalizing out out' with
  | nil =>
      rw [← hkept]
      exact hout
  | cons s rest ih =>
      refine ih (fun segment below hmem => hreach segment below (List.mem_cons_of_mem s hmem)) ?_
        hkept
      cases s with
      | nil =>
          -- All names are there after this step, so it adds the same ones the second time.
          have hall : ∀ name ∈ Fields.keys m, name ∈ Fields.keys (mergeFields out m) := by
            intro name hname
            rw [keys_mergeFields hm, List.mem_append, List.mem_filter]
            by_cases hmem : name ∈ Fields.keys out
            · exact .inl hmem
            · exact .inr ⟨hname, by simpa using hmem⟩
          have hkeys : Fields.keys m' =
              Fields.keys out ++ (Fields.keys m).filter (· ∉ Fields.keys out) := by
            rw [← hkept, ← keys_mergeFields hm]
            exact keys_keepFields_of_subset hm hall
          rw [keepFieldsPart, keepFieldsPart, keys_mergeFields hm, keys_mergeFields hm', hout,
            hkeys]
          simp [List.filter_append, List.filter_filter]
      | cons segment below =>
          rw [keys_keepFieldsPart_cons, keys_keepFieldsPart_cons,
            hreach segment below List.mem_cons_self, hout]

/-- What is kept of a value is kept again along the same chains. -/
def Settled (v : Value) : Prop :=
  ∀ chains u, keepParts v chains none = some u → keepParts u chains none = some u

/-- **Fields are kept again**, if what is kept of their values is. -/
theorem keepFields_again (hm : (Value.object m).Distinct)
    (hfields : ∀ name w, Fields.get? m name = some w → Settled w)
    (chains : List (List String)) :
    keepFields (keepFields m chains []) chains [] = keepFields m chains [] := by
  have hm' : DistinctNames (keepFields m chains []) :=
    distinctNames_keepFields Value.editable_distinct.empty chains
  refine Fields.eq_of_keys hm' ?_ fun name _ => ?_
  · -- The chains reach the same fields, so the names come in the same order.
    exact keys_keepFields_again hm.1 hm' (fun segment rest hs =>
      isSome_bind_keepFields hm isSome_partAlong_kept hs) rfl rfl
  · -- The value of a field is kept along the chains that go through it, and so it is again.
    rw [get?_keepFields hm', get?_keepFields hm.1]
    cases hget : Fields.get? m name with
    | none => rfl
    | some w =>
        rw [Option.elim_some, Fields.get?_nil]
        cases hkept : keepParts w (chains.filterMap (tailAt name)) none with
        | none => rfl
        | some x => exact hfields name w hget _ x hkept

theorem settled_object (hm : (Value.object m).Distinct)
    (hfields : ∀ name w, Fields.get? m name = some w → Settled w) : Settled (.object m) := by
  intro chains u h
  obtain rfl := eq_object_of_keepParts hm.1 h
  have hm' : DistinctNames (keepFields m chains []) :=
    distinctNames_keepFields Value.editable_distinct.empty chains
  cases hagain : keepParts (.object (keepFields m chains [])) chains none with
  | none =>
      -- Some chain reached something the first time, so it does again.
      have hnone : ∀ s ∈ chains, partAlong s (.object m) = none := by
        intro s hs
        have hreach := isSome_partAlong_kept hm h hs
        rw [keepParts_eq_none_iff.1 hagain s hs] at hreach
        exact Option.not_isSome_iff_eq_none.1 (hreach ▸ Bool.false_ne_true)
      rw [keepParts_eq_none_iff.2 hnone] at h
      cases h
  | some x =>
      rw [eq_object_of_keepParts hm' hagain, keepFields_again hm hfields]

theorem settled_array (items : List Value) : Settled (.array items) := by
  intro chains u h
  obtain ⟨before, s, parts, rfl, hpart, rfl⟩ := exists_last_of_keepParts_array h
  rw [keepParts_array]
  exact partAlong_partAlong s _ _ hpart

theorem settled_scalar (hv : v.isContainer = false) : Settled v := by
  intro chains u h
  rcases eq_of_keepParts_scalar hv h with rfl | hnone
  · exact h
  · cases hnone

mutual

/-- **Whatever is kept of a value is kept again.** -/
theorem settled : ∀ v : Value, v.Distinct → Settled v
  | .object m, h => settled_object h fun name w hw =>
      settled_fields m h.2 (name, w) (Fields.mem_of_get? hw)
  | .array items, _ => settled_array items
  | .null, _ | .bool _, _ | .int _, _ | .float _, _ | .string _, _ | .date _, _ =>
      settled_scalar rfl

theorem settled_fields : ∀ fields : List (String × Value),
    EverywhereFields (fun _ => True) DistinctNames fields → ∀ e ∈ fields, Settled e.2
  | [], _ => List.forall_mem_nil _
  | (_, v) :: rest, h => List.forall_mem_cons.2 ⟨settled v h.1, settled_fields rest h.2⟩

end

/-! ## Leaving out again -/

/-- Where nothing can be removed, nothing can be removed after other removals. -/
theorem remove?_dropPaths_of_none {d : Fields Value} (hd : (Value.object d).Distinct)
    {t : List String} (ht : t ≠ []) (h : Value.remove? t (.object d) = none)
    (paths : List String) : Value.remove? t (.object (dropPaths d paths)) = none := by
  induction paths generalizing d with
  | nil => exact h
  | cons path rest ih =>
      rw [dropPaths_cons]
      exact ih (Everywhere.erasePath Value.editable_distinct hd path)
        (Fields.remove?_erasePath_of_none hd ht h path)

/-- **What is left out cannot be removed again.** -/
theorem remove?_dropPaths {d : Fields Value} (hd : (Value.object d).Distinct)
    {paths : List String} : ∀ path ∈ paths,
      Value.remove? (Segments.ofPath path) (.object (dropPaths d paths)) = none := by
  induction paths generalizing d with
  | nil => exact List.forall_mem_nil _
  | cons first rest ih =>
      have herased := Everywhere.erasePath Value.editable_distinct hd first
      rw [dropPaths_cons]
      refine List.forall_mem_cons.2 ⟨?_, ih herased⟩
      exact remove?_dropPaths_of_none herased (Segments.ofPath_ne_nil first)
        (Fields.remove?_erasePath_self hd first) rest

theorem dropPaths_of_none {d : Fields Value} {paths : List String}
    (h : ∀ path ∈ paths, Value.remove? (Segments.ofPath path) (.object d) = none) :
    dropPaths d paths = d := by
  induction paths with
  | nil => rfl
  | cons first rest ih =>
      obtain ⟨hfirst, hrest⟩ := List.forall_mem_cons.1 h
      have hsame : (Fields.erasePath d first).1 = d := by
        rw [Fields.erasePath, hfirst]
      rw [dropPaths_cons, hsame]
      exact ih hrest

/-! ## Projecting -/

/-- **Projecting twice** makes what projecting once makes, with the fields in the same order. -/
theorem apply_apply (p : Projection) {d : Value} (hd : d.Distinct) :
    p.apply (p.apply d) = p.apply d := by
  cases d with
  | object m =>
      show Value.object (p.applyFields (p.applyFields m)) = Value.object (p.applyFields m)
      refine congrArg Value.object ?_
      cases p with
      | keep paths withId =>
          have hfields : ∀ name w, Fields.get? m name = some w → Settled w :=
            fun name w hw => settled w (Everywhere.field hd.2 hw)
          calc applyFields (keep paths withId) (applyFields (keep paths withId) m)
              = keepFields (keepFields m (keptChains paths withId) [])
                  (keptChains paths withId) [] := by rw [applyFields_keep, applyFields_keep]
            _ = keepFields m (keptChains paths withId) [] := keepFields_again hd hfields _
            _ = applyFields (keep paths withId) m := (applyFields_keep m paths withId).symm
      | drop paths => exact dropPaths_of_none (remove?_dropPaths hd)
  | _ => rfl

/-- The owner is kept with the city in front, as that was listed first, and of the tags only what
the last path keeps is left. -/
theorem apply_apply_pets :
    let pet : Value := .object [
      ("tags", .array [.object [("name", .string "dog"), ("rank", .int 2)], .int 7]),
      ("owner", .object [("name", .string "Ann"), ("city", .string "Ulm")]), ("_id", .int 1)]
    let kept : Value := .object [("_id", .int 1),
      ("owner", .object [("city", .string "Ulm"), ("name", .string "Ann")]),
      ("tags", .array [.object [("rank", .int 2)]])]
    let p := keep ["owner.city", "tags.name", "owner", "tags.rank"] true
    pet.Distinct ∧ p.apply pet = kept ∧ p.apply kept = kept := by
  intro pet kept p
  have hpet : pet.Distinct := by
    refine ⟨by decide, ⟨⟨by decide, trivial, trivial, trivial⟩, trivial, trivial⟩, ?_, trivial,
      trivial⟩
    exact ⟨by decide, trivial, trivial, trivial⟩
  have hcity : Segments.ofPath "owner.city" = ["owner", "city"] := by decide
  have hname : Segments.ofPath "tags.name" = ["tags", "name"] := by decide
  have howner : Segments.ofPath "owner" = ["owner"] := by decide
  have hrank : Segments.ofPath "tags.rank" = ["tags", "rank"] := by decide
  have hkept : p.apply pet = kept := by
    simp [p, pet, kept, apply, applyFields, keepPaths, keptId, kept?, addKept, Segments.top, hcity,
      hname, howner, hrank, idField, Fields.get?, Fields.insert, partAlong, part, partItems,
      mergeValue, mergeFields]
  have hagain := apply_apply p hpet
  rw [hkept] at hagain
  exact ⟨hpet, hkept, hagain⟩

end Projection

end DocStore
