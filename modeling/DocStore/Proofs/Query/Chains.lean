import DocStore.Proofs.Query.Kept

/-!
# What is kept along chains of segments

A projection keeps paths one after another. Followed down the document, this is the same at every
value: in an array the last chain decides (`Projection.keepParts_array`), and in an object each
field is kept along the chains that go through it (`Projection.get?_keepFields`), in the order in
which the chains first reach the fields. A chain without segments keeps all of a value.
-/

set_option autoImplicit false

namespace DocStore

namespace Projection

open Value (DistinctNames)

/-! ## Merging fields -/

section Merge

variable {m out : Fields Value} {name : String}

theorem get?_mergeFields (hm : DistinctNames m) (out : Fields Value) (name : String) :
    Fields.get? (mergeFields out m) name =
      (Fields.get? m name).elim (Fields.get? out name) fun w =>
        some (mergeValue (Fields.get? out name) w) := by
  induction m generalizing out with
  | nil => rw [mergeFields, Fields.get?_nil, Option.elim_none]
  | cons e rest ih =>
      obtain ⟨k, v⟩ := e
      obtain ⟨hk, hrest⟩ := List.nodup_cons.1 hm
      rw [mergeFields, ih hrest]
      by_cases hname : k = name
      · subst hname
        rw [Fields.get?_eq_none_iff.2 hk, Option.elim_none, Fields.get?_insert_self, Fields.get?,
          if_pos rfl, Option.elim_some]
      · rw [Fields.get?_insert_of_ne _ _ (Ne.symm hname), Fields.get?, if_neg hname]

/-- New names go to the end, in their order. -/
theorem keys_mergeFields (hm : DistinctNames m) (out : Fields Value) :
    Fields.keys (mergeFields out m) =
      Fields.keys out ++ (Fields.keys m).filter (· ∉ Fields.keys out) := by
  induction m generalizing out with
  | nil => simp [mergeFields, Fields.keys]
  | cons e rest ih =>
      obtain ⟨k, v⟩ := e
      obtain ⟨hk, hrest⟩ := List.nodup_cons.1 hm
      have hkeys : Fields.keys ((k, v) :: rest) = k :: Fields.keys rest := rfl
      rw [mergeFields, ih hrest, hkeys, Fields.keys_insert]
      by_cases hmem : k ∈ Fields.keys out
      · rw [if_pos hmem, List.filter_cons_of_neg (by simpa using hmem)]
      · rw [if_neg hmem, List.filter_cons_of_pos (by simpa using hmem), List.append_assoc,
          List.singleton_append]
        refine congrArg (Fields.keys out ++ k :: ·) (List.filter_congr fun name hname => ?_)
        have hne : name ≠ k := ne_of_mem_of_not_mem hname hk
        simp [hne]

theorem distinctNames_mergeFields (hout : DistinctNames out) (m : Fields Value) :
    DistinctNames (mergeFields out m) := by
  induction m generalizing out with
  | nil => rwa [mergeFields]
  | cons e rest ih =>
      rw [mergeFields]
      exact ih (Fields.nodup_keys_insert hout _ _)

theorem mergeFields_nil (hm : DistinctNames m) : mergeFields [] m = m := by
  refine Fields.eq_of_keys hm ?_ fun name hname => ?_
  · rw [keys_mergeFields hm]
    simp [Fields.keys]
  · rw [get?_mergeFields hm]
    cases hget : Fields.get? m name with
    | none => exact absurd hname (Fields.get?_eq_none_iff.1 hget)
    | some w => rw [Option.elim_some, Fields.get?_nil, mergeValue_none]

end Merge

/-! ## What is kept along chains -/

/-- What is kept of a value after the part along one more chain is merged in, if there is one. -/
def keepPart (v : Value) (old : Option Value) (s : List String) : Option Value :=
  (partAlong s v).elim old fun u => some (mergeValue old u)

/-- What is kept of a value along chains, one after another. -/
def keepParts (v : Value) (chains : List (List String)) (old : Option Value) : Option Value :=
  chains.foldl (keepPart v) old

/-- What is kept of the fields of an object after one more chain. -/
def keepFieldsPart (m out : Fields Value) : List String → Fields Value
  | [] => mergeFields out m
  | segment :: rest =>
    ((Fields.get? m segment).bind (partAlong rest)).elim out fun u =>
      Fields.insert out segment (mergeValue (Fields.get? out segment) u)

/-- What is kept of the fields of an object along chains, one after another. -/
def keepFields (m : Fields Value) (chains : List (List String)) (out : Fields Value) :
    Fields Value :=
  chains.foldl (keepFieldsPart m) out

/-- The rest of a chain below a field, if it goes there. The empty chain goes everywhere. -/
def tailAt (name : String) : List String → Option (List String)
  | [] => some []
  | segment :: rest => if segment = name then some rest else none

variable {m out : Fields Value} {v u : Value} {name : String}
variable {chains : List (List String)} {s : List String}

theorem keepParts_cons (v : Value) (s : List String) (rest : List (List String))
    (old : Option Value) :
    keepParts v (s :: rest) old = keepParts v rest (keepPart v old s) := rfl

theorem keepFields_cons (m out : Fields Value) (s : List String) (rest : List (List String)) :
    keepFields m (s :: rest) out = keepFields m rest (keepFieldsPart m out s) := rfl

/-- What was kept once does not get lost altogether. -/
theorem exists_keepParts_some (v : Value) (chains : List (List String)) (w : Value) :
    ∃ u, keepParts v chains (some w) = some u := by
  induction chains generalizing w with
  | nil => exact ⟨w, rfl⟩
  | cons s rest ih =>
      have hstep : ∃ x, keepPart v (some w) s = some x := by
        rw [keepPart]
        cases partAlong s v with
        | none => exact ⟨w, rfl⟩
        | some u => exact ⟨_, rfl⟩
      obtain ⟨x, hx⟩ := hstep
      rw [keepParts_cons, hx]
      exact ih x

/-- Nothing is kept iff no chain reaches anything. -/
theorem keepParts_eq_none_iff :
    keepParts v chains none = none ↔ ∀ s ∈ chains, partAlong s v = none := by
  induction chains with
  | nil => simp [keepParts]
  | cons s rest ih =>
      rw [List.forall_mem_cons, ← ih, keepParts_cons, keepPart]
      cases hpart : partAlong s v with
      | none => simp
      | some x =>
          obtain ⟨u, hu⟩ := exists_keepParts_some v rest (mergeValue none x)
          simp [hu]

/-! ## Objects -/

theorem keepPart_object (out : Fields Value) (s : List String) :
    keepPart (.object m) (some (.object out)) s = some (.object (keepFieldsPart m out s)) := by
  cases s with
  | nil => rw [keepPart, partAlong, Option.elim_some, mergeValue, keepFieldsPart]
  | cons segment rest =>
      rw [keepPart, partAlong, part, keepFieldsPart]
      cases (Fields.get? m segment).bind (partAlong rest) with
      | none => rfl
      | some u =>
          rw [Option.map_some, Option.elim_some, Option.elim_some, mergeValue_singleton]
          rfl

/-- What is kept of an object is kept of its fields. -/
theorem keepParts_object (out : Fields Value) (chains : List (List String)) :
    keepParts (.object m) chains (some (.object out)) =
      some (.object (keepFields m chains out)) := by
  induction chains generalizing out with
  | nil => rfl
  | cons s rest ih =>
      rw [keepParts_cons, keepPart_object]
      exact ih (keepFieldsPart m out s)

/-- The first chain that reaches something makes the object. -/
theorem eq_object_of_keepParts (hm : DistinctNames m)
    (h : keepParts (.object m) chains none = some u) : u = .object (keepFields m chains []) := by
  induction chains with
  | nil => cases h
  | cons s rest ih =>
      rw [keepParts_cons] at h
      cases s with
      | nil =>
          -- The whole object is kept, which is all of its fields merged into none.
          have hwhole : keepPart (.object m) none [] = some (.object (keepFieldsPart m [] [])) := by
            rw [keepPart, partAlong, Option.elim_some, mergeValue_none, keepFieldsPart,
              mergeFields_nil hm]
          rw [hwhole] at h
          exact Option.some.inj (h.symm.trans (keepParts_object _ rest))
      | cons segment below =>
          rw [keepPart, partAlong, part] at h
          rw [keepFields_cons, keepFieldsPart]
          cases hpart : (Fields.get? m segment).bind (partAlong below) with
          | none =>
              rw [hpart] at h
              exact ih h
          | some x =>
              rw [hpart, Option.map_some, Option.elim_some, mergeValue_singleton] at h
              exact Option.some.inj (h.symm.trans (keepParts_object _ rest))

theorem get?_keepFieldsPart (hm : DistinctNames m) (out : Fields Value) (s : List String) :
    Fields.get? (keepFieldsPart m out s) name =
      (Fields.get? m name).elim (Fields.get? out name) fun w =>
        (tailAt name s).elim (Fields.get? out name) (keepPart w (Fields.get? out name)) := by
  cases s with
  | nil =>
      rw [keepFieldsPart, get?_mergeFields hm]
      rfl
  | cons segment rest =>
      rw [keepFieldsPart, tailAt]
      by_cases hname : segment = name
      · subst hname
        rw [if_pos rfl]
        cases hget : Fields.get? m segment with
        | none => rfl
        | some w =>
            rw [Option.bind_some, Option.elim_some, Option.elim_some, keepPart]
            cases partAlong rest w with
            | none => rfl
            | some u => exact Fields.get?_insert_self _ _ _
      · -- A chain through another field leaves this one alone.
        rw [if_neg hname]
        have hsame : Fields.get? (((Fields.get? m segment).bind (partAlong rest)).elim out fun u =>
            Fields.insert out segment (mergeValue (Fields.get? out segment) u)) name =
              Fields.get? out name := by
          cases (Fields.get? m segment).bind (partAlong rest) with
          | none => rfl
          | some u => exact Fields.get?_insert_of_ne out _ (Ne.symm hname)
        rw [hsame]
        cases Fields.get? m name <;> rfl

/-- **A field is kept along the chains that go through it.** -/
theorem get?_keepFields (hm : DistinctNames m) (chains : List (List String)) (out : Fields Value) :
    Fields.get? (keepFields m chains out) name =
      (Fields.get? m name).elim (Fields.get? out name) fun w =>
        keepParts w (chains.filterMap (tailAt name)) (Fields.get? out name) := by
  induction chains generalizing out with
  | nil => cases Fields.get? m name <;> rfl
  | cons s rest ih =>
      rw [keepFields_cons, ih, get?_keepFieldsPart hm]
      cases Fields.get? m name with
      | none => rfl
      | some w =>
          simp only [Option.elim_some, List.filterMap_cons]
          cases tailAt name s <;> rfl

/-! ## The order of fields -/

theorem keys_keepFieldsPart_cons (segment : String) (rest : List String) :
    Fields.keys (keepFieldsPart m out (segment :: rest)) =
      if ((Fields.get? m segment).bind (partAlong rest)).isSome ∧ segment ∉ Fields.keys out then
        Fields.keys out ++ [segment] else Fields.keys out := by
  rw [keepFieldsPart]
  cases (Fields.get? m segment).bind (partAlong rest) with
  | none => simp
  | some u =>
      rw [Option.elim_some, Fields.keys_insert]
      by_cases h : segment ∈ Fields.keys out <;> simp [h]

/-- Where all names are there already, none is added. -/
theorem keys_keepFields_of_subset (hm : DistinctNames m)
    (h : ∀ name ∈ Fields.keys m, name ∈ Fields.keys out) :
    Fields.keys (keepFields m chains out) = Fields.keys out := by
  induction chains generalizing out with
  | nil => rfl
  | cons s rest ih =>
      have hsame : Fields.keys (keepFieldsPart m out s) = Fields.keys out := by
        cases s with
        | nil =>
            rw [keepFieldsPart, keys_mergeFields hm, List.filter_eq_nil_iff.2, List.append_nil]
            intro name hname
            simpa using h name hname
        | cons segment below =>
            rw [keys_keepFieldsPart_cons, if_neg]
            rintro ⟨hsome, hnew⟩
            cases hget : Fields.get? m segment with
            | none => simp [hget] at hsome
            | some w => exact hnew (h segment (Fields.mem_keys (Fields.mem_of_get? hget)))
      rw [keepFields_cons, ih fun name hname => hsame ▸ h name hname]
      exact hsame

theorem distinctNames_keepFields (hout : DistinctNames out) (chains : List (List String)) :
    DistinctNames (keepFields m chains out) := by
  induction chains generalizing out with
  | nil => exact hout
  | cons s rest ih =>
      refine ih ?_
      cases s with
      | nil => exact distinctNames_mergeFields hout m
      | cons segment below =>
          rw [keepFieldsPart]
          cases (Fields.get? m segment).bind (partAlong below) with
          | none => exact hout
          | some u => exact Fields.nodup_keys_insert hout segment _

/-! ## Arrays and scalars -/

/-- A part of an array is an array. -/
theorem exists_partAlong_array (s : List String) (items : List Value) :
    ∃ parts, partAlong s (.array items) = some (.array parts) := by
  cases s with
  | nil => exact ⟨items, rfl⟩
  | cons segment rest => exact ⟨_, rfl⟩

/-- **In an array the last chain decides.** -/
theorem keepParts_array (items : List Value) (before : List (List String)) (s : List String)
    (old : Option Value) :
    keepParts (.array items) (before ++ [s]) old = partAlong s (.array items) := by
  obtain ⟨parts, hparts⟩ := exists_partAlong_array s items
  rw [keepParts, List.foldl_append, List.foldl_cons, List.foldl_nil, keepPart, hparts,
    Option.elim_some, mergeValue_array]

/-- What is kept of an array is the part of the last chain. -/
theorem exists_last_of_keepParts_array {items : List Value}
    (h : keepParts (.array items) chains none = some u) :
    ∃ before s parts, chains = before ++ [s] ∧ partAlong s (.array items) = some u ∧
      u = .array parts := by
  rcases List.eq_nil_or_concat chains with rfl | ⟨before, s, rfl⟩
  · cases h
  · rw [List.concat_eq_append, keepParts_array] at h
    obtain ⟨parts, hparts⟩ := exists_partAlong_array s items
    exact ⟨before, s, parts, List.concat_eq_append, h, Option.some.inj (h.symm.trans hparts)⟩

/-- A part of a scalar is the scalar. -/
theorem eq_of_partAlong_scalar (hv : v.isContainer = false) (h : partAlong s v = some u) :
    u = v := by
  cases s with
  | nil => exact (Option.some.inj h).symm
  | cons segment rest =>
      cases v with
      | array items => cases hv
      | object m => cases hv
      | _ => cases h

theorem mergeValue_scalar (hv : v.isContainer = false) (old : Option Value) :
    mergeValue old v = v := by
  rw [mergeValue]
  intro incoming hobject
  rw [hobject] at hv
  cases hv

/-- What is kept of a scalar is the scalar. -/
theorem eq_of_keepParts_scalar (hv : v.isContainer = false) {old : Option Value}
    (h : keepParts v chains old = some u) : u = v ∨ old = some u := by
  induction chains generalizing old with
  | nil => exact .inr h
  | cons s rest ih =>
      -- The later chains keep the scalar, or what this one leaves.
      rcases ih h with hu | hold
      · exact .inl hu
      · cases hpart : partAlong s v with
        | none =>
            rw [keepPart, hpart, Option.elim_none] at hold
            exact .inr hold
        | some x =>
            obtain rfl := eq_of_partAlong_scalar hv hpart
            rw [keepPart, hpart, Option.elim_some, mergeValue_scalar hv] at hold
            exact .inl (Option.some.inj hold).symm

/-! ## Keeping paths -/

/-- The chains along which a projection keeps a document, the id first. -/
def keptChains (paths : List String) (withId : Bool) : List (List String) :=
  (if withId then [[idField]] else []) ++ paths.map Segments.ofPath

theorem keepPaths_eq (d out : Fields Value) (paths : List String) :
    keepPaths d out paths = keepFields d (paths.map Segments.ofPath) out := by
  induction paths generalizing out with
  | nil => rfl
  | cons path rest ih =>
      have hstep : keepPaths d out [path] = keepFieldsPart d out (Segments.ofPath path) := by
        obtain ⟨below, hbelow⟩ := Fields.ofPath_eq_top_cons path
        rw [keepPaths, List.foldl_cons, List.foldl_nil, kept?, hbelow, keepFieldsPart]
        dsimp only
        cases (Fields.get? d (Segments.top path)).bind (partAlong below) with
        | none => rfl
        | some u => rfl
      rw [keepPaths_cons, hstep, ih, List.map_cons, keepFields_cons]

theorem keptId_eq (withId : Bool) (d : Fields Value) :
    keptId withId d = keepFields d (if withId then [[idField]] else []) [] := by
  cases withId with
  | false => rfl
  | true =>
      rw [keptId, if_pos rfl, if_pos rfl, keepFields_cons, keepFieldsPart]
      cases Fields.get? d idField with
      | none => rfl
      | some id =>
          rw [Option.bind_some, partAlong, Option.elim_some, Fields.get?_nil, mergeValue_none]
          rfl

/-- **A projection keeps a document along its chains.** -/
theorem applyFields_keep (d : Fields Value) (paths : List String) (withId : Bool) :
    applyFields (keep paths withId) d = keepFields d (keptChains paths withId) [] := by
  rw [applyFields, keepPaths_eq, keptId_eq, keptChains, keepFields, keepFields, keepFields,
    List.foldl_append]

end Projection

end DocStore
