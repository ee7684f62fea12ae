import DocStore.Json.Reader
import DocStore.Proofs.Json.Scan

/-!
# Reading printed JSON

The tokens of a value that does not nest too deeply are read as the value: `written?_render`. No
object of a value that was read from a text has two fields of one name: `distinct_merged`.
-/

set_option autoImplicit false

namespace DocStore.Json

/-! ## Depth -/

mutual

/-- The number of arrays and objects around the innermost value. -/
def depth : Json → Nat
  | array items => 1 + depthOfItems items
  | object fields => 1 + depthOfFields fields
  | _ => 0

/-- The greatest depth of the items of an array. -/
def depthOfItems : List Json → Nat
  | [] => 0
  | v :: rest => max (depth v) (depthOfItems rest)

/-- The greatest depth of the fields of an object. -/
def depthOfFields : List (String × Json) → Nat
  | [] => 0
  | (_, v) :: rest => max (depth v) (depthOfFields rest)

end

namespace Position

/-! ## Reading tokens -/

/-- An item starts an array as it starts any value. -/
theorem run?_firstItem (open_ : List Frame) (v : Json) (rest : List Token) :
    run? (.firstItem open_) (tokens v ++ rest) =
      run? (.value (.array [] :: open_)) (tokens v ++ rest) := by
  cases v <;> rfl

theorem run?_openArray (open_ : List Frame) (rest : List Token) :
    run? (.value open_) (.openArray :: rest) =
      if open_.length < maxDepth then run? (.firstItem open_) rest else none := by
  rw [run?, step?, begin?]
  split <;> rfl

theorem run?_openObject (open_ : List Frame) (rest : List Token) :
    run? (.value open_) (.openObject :: rest) =
      if open_.length < maxDepth then run? (.firstName open_) rest else none := by
  rw [run?, step?, begin?]
  split <;> rfl

/-- What is read if two values are not too deep is read if the deeper one is not. -/
theorem ite_depth (n a b : Nat) (result : Option Json) :
    (if n + a ≤ maxDepth then if n + b ≤ maxDepth then result else none else none) =
      if n + max a b ≤ maxDepth then result else none := by
  split_ifs <;> first | rfl | omega

mutual

/-- **The tokens of a value are read as the value**, unless it nests too deeply. -/
theorem run?_tokens : ∀ (j : Json) (open_ : List Frame) (rest : List Token),
    open_.length ≤ maxDepth → run? (.value open_) (tokens j ++ rest) =
      if open_.length + j.depth ≤ maxDepth then run? (.after j open_) rest else none
  -- Scalars open nothing.
  | .null, _, _, hopen => (if_pos hopen).symm
  | .bool _, _, _, hopen => (if_pos hopen).symm
  | .number _, _, _, hopen => (if_pos hopen).symm
  | .string _, _, _, hopen => (if_pos hopen).symm
  | .array [], open_, rest, _ => run?_openArray open_ (.closeArray :: rest)
  | .array (v :: more), open_, rest, _ => by
      have htokens : tokens (.array (v :: more)) ++ rest =
          .openArray :: (tokensOfItems (v :: more) ++ .closeArray :: rest) := by
        simp [tokens]
      have hfirst : run? (.firstItem open_) (tokensOfItems (v :: more) ++ .closeArray :: rest) =
          run? (.value (.array [] :: open_))
            (tokensOfItems (v :: more) ++ .closeArray :: rest) := by
        cases more <;> simp only [tokensOfItems, List.append_assoc] <;> exact run?_firstItem _ _ _
      -- Whether the array may be opened is asked before its items are read.
      rw [htokens, run?_openArray, hfirst, depth]
      by_cases hdeep : open_.length < maxDepth
      · rw [if_pos hdeep, run?_tokensOfItems (v :: more) (by simp) [] open_ rest hdeep,
          Nat.add_assoc]
        rfl
      · rw [if_neg hdeep, if_neg (by omega)]
  | .object [], open_, rest, _ => run?_openObject open_ (.closeObject :: rest)
  | .object (e :: more), open_, rest, _ => by
      have htokens : tokens (.object (e :: more)) ++ rest =
          .openObject :: (tokensOfFields (e :: more) ++ .closeObject :: rest) := by
        simp [tokens]
      have hfirst : run? (.firstName open_) (tokensOfFields (e :: more) ++ .closeObject :: rest) =
          run? (.name [] open_) (tokensOfFields (e :: more) ++ .closeObject :: rest) := by
        cases more <;> rfl
      rw [htokens, run?_openObject, hfirst, depth]
      by_cases hdeep : open_.length < maxDepth
      · rw [if_pos hdeep, run?_tokensOfFields (e :: more) (by simp) [] open_ rest hdeep,
          Nat.add_assoc]
        rfl
      · rw [if_neg hdeep, if_neg (by omega)]

theorem run?_tokensOfItems : ∀ (items : List Json), items ≠ [] → ∀ (done : List Json)
    (open_ : List Frame) (rest : List Token), open_.length < maxDepth →
    run? (.value (.array done :: open_)) (tokensOfItems items ++ .closeArray :: rest) =
      if open_.length + 1 + depthOfItems items ≤ maxDepth then
        run? (.after (.array (done.reverse ++ items)) open_) rest
      else none
  | [], h, _, _, _, _ => absurd rfl h
  | [v], _, done, open_, rest, hopen => by
      rw [tokensOfItems, run?_tokens v (.array done :: open_) _ hopen]
      simp only [depthOfItems, Nat.max_zero]
      rfl
  | v :: w :: more, _, done, open_, rest, hopen => by
      have hcomma : run? (.after v (.array done :: open_))
          (.comma :: (tokensOfItems (w :: more) ++ .closeArray :: rest)) =
          run? (.value (.array (v :: done) :: open_))
            (tokensOfItems (w :: more) ++ .closeArray :: rest) := rfl
      rw [tokensOfItems, List.append_assoc, List.cons_append,
        run?_tokens v (.array done :: open_) _ hopen, hcomma,
        run?_tokensOfItems (w :: more) (by simp) _ _ _ hopen, List.length_cons, ite_depth]
      · rw [List.reverse_cons, List.append_assoc]
        rfl
      · exact fun h => by cases h

theorem run?_tokensOfFields : ∀ (fields : List (String × Json)), fields ≠ [] →
    ∀ (done : List (String × Json)) (open_ : List Frame) (rest : List Token),
    open_.length < maxDepth →
      run? (.name done open_) (tokensOfFields fields ++ .closeObject :: rest) =
        if open_.length + 1 + depthOfFields fields ≤ maxDepth then
          run? (.after (.object (done.reverse ++ fields)) open_) rest
        else none
  | [], h, _, _, _, _ => absurd rfl h
  | [(k, v)], _, done, open_, rest, hopen => by
      have hname : run? (.name done open_) (tokensOfFields [(k, v)] ++ .closeObject :: rest) =
          run? (.value (.object done k :: open_)) (tokens v ++ .closeObject :: rest) := rfl
      rw [hname, run?_tokens v (.object done k :: open_) _ hopen]
      simp only [depthOfFields, Nat.max_zero]
      rfl
  | (k, v) :: e :: more, _, done, open_, rest, hopen => by
      have hname : run? (.name done open_)
          (tokensOfFields ((k, v) :: e :: more) ++ .closeObject :: rest) =
          run? (.value (.object done k :: open_))
            (tokens v ++ .comma :: (tokensOfFields (e :: more) ++ .closeObject :: rest)) := by
        rw [tokensOfFields]
        · simp only [List.cons_append, List.append_assoc]
          rfl
        · exact fun h => by cases h
      have hcomma : run? (.after v (.object done k :: open_))
          (.comma :: (tokensOfFields (e :: more) ++ .closeObject :: rest)) =
          run? (.name ((k, v) :: done) open_)
            (tokensOfFields (e :: more) ++ .closeObject :: rest) := rfl
      rw [hname, run?_tokens v (.object done k :: open_) _ hopen, hcomma,
        run?_tokensOfFields (e :: more) (by simp) _ _ _ hopen, List.length_cons, ite_depth,
        List.reverse_cons, List.append_assoc]
      rfl

end

end Position

/-- **Printed JSON is read back** as it was written, with its numbers read from their texts, if they
can be read and it does not nest too deeply. -/
theorem written?_render (j : Json) : written? j.render =
    j.reread?.bind fun k => if k.depth ≤ maxDepth then some k else none := by
  rw [written?, Token.scan_render, Option.bind_map]
  congr 1
  funext k
  have hrun := Position.run?_tokens k [] [] (Nat.zero_le _)
  rw [List.append_nil, List.length_nil, Nat.zero_add] at hrun
  rw [Function.comp_apply, hrun]
  split <;> rfl

/-! ## Depth of what is read back -/

theorem Number.depth_reread {n : Number} {k : Json} (h : n.reread? = some k) : k.depth = 0 := by
  unfold reread? at h
  split at h
  · obtain ⟨_, -, rfl⟩ := Option.map_eq_some_iff.1 h
    rfl
  · split at h
    · obtain ⟨_, -, rfl⟩ := Option.map_eq_some_iff.1 h
      rfl
    · cases h
      rfl

mutual

/-- Reading the numbers of a value keeps its depth. -/
theorem depth_reread : ∀ {j k : Json}, j.reread? = some k → k.depth = j.depth
  | .null, _, h => by
      cases h
      rfl
  | .bool _, _, h => by
      cases h
      rfl
  | .number n, _, h => Number.depth_reread h
  | .string _, _, h => by
      cases h
      rfl
  | .array items, _, h => by
      obtain ⟨read, hread, rfl⟩ := Option.map_eq_some_iff.1 h
      rw [depth, depth, depthOfItems_reread hread]
  | .object fields, _, h => by
      obtain ⟨read, hread, rfl⟩ := Option.map_eq_some_iff.1 h
      rw [depth, depth, depthOfFields_reread hread]

theorem depthOfItems_reread : ∀ {items read : List Json}, rereadItems? items = some read →
    depthOfItems read = depthOfItems items
  | [], _, h => by
      cases h
      rfl
  | j :: rest, _, h => by
      obtain ⟨k, more, hk, hmore, rfl⟩ := rereadItems?_cons.1 h
      rw [depthOfItems, depthOfItems, depth_reread hk, depthOfItems_reread hmore]

theorem depthOfFields_reread : ∀ {fields read : List (String × Json)},
    rereadFields? fields = some read → depthOfFields read = depthOfFields fields
  | [], _, h => by
      cases h
      rfl
  | (_, j) :: rest, _, h => by
      obtain ⟨k, more, hk, hmore, rfl⟩ := rereadFields?_cons.1 h
      rw [depthOfFields, depthOfFields, depth_reread hk, depthOfFields_reread hmore]

end

/-! ## Names -/

mutual

/-- JSON in which no object has two fields of one name. -/
def Distinct : Json → Prop
  | array items => DistinctItems items
  | object fields => (Fields.keys fields).Nodup ∧ DistinctFields fields
  | _ => True

/-- The same of all items of an array. -/
def DistinctItems : List Json → Prop
  | [] => True
  | j :: rest => Distinct j ∧ DistinctItems rest

/-- The same of all values of fields. -/
def DistinctFields : List (String × Json) → Prop
  | [] => True
  | (_, j) :: rest => Distinct j ∧ DistinctFields rest

end

theorem distinctItems_iff {items : List Json} :
    DistinctItems items ↔ ∀ j ∈ items, j.Distinct := by
  induction items with
  | nil => simp [DistinctItems]
  | cons j rest ih => rw [DistinctItems, ih, List.forall_mem_cons]

theorem distinctFields_iff {fields : List (String × Json)} :
    DistinctFields fields ↔ ∀ e ∈ fields, e.2.Distinct := by
  induction fields with
  | nil => simp [DistinctFields]
  | cons e rest ih => rw [DistinctFields, ih, List.forall_mem_cons]

theorem distinct_insert {fields : Fields Json} (h : (object fields).Distinct) (name : String)
    {j : Json} (hj : j.Distinct) : (object (Fields.insert fields name j)).Distinct := by
  refine ⟨Fields.nodup_keys_insert h.1 name j, ?_⟩
  -- Names do not count any more, and the fields that are left may have any.
  have hfields := h.2
  clear h
  induction fields with
  | nil => exact ⟨hj, trivial⟩
  | cons e rest ih =>
      obtain ⟨k, w⟩ := e
      by_cases hk : k = name
      · rw [Fields.insert, if_pos hk]
        exact ⟨hj, hfields.2⟩
      · rw [Fields.insert, if_neg hk]
        exact ⟨hfields.1, ih hfields.2⟩

theorem distinct_ofEntries {fields : List (String × Json)} (h : DistinctFields fields) :
    (object (Fields.ofEntries fields)).Distinct := by
  -- One field after the other is inserted among those that are there.
  have hfrom : ∀ done : Fields Json, (object done).Distinct →
      (object (fields.foldl (fun m e => Fields.insert m e.1 e.2) done)).Distinct := by
    induction fields with
    | nil => exact fun _ hdone => hdone
    | cons e rest ih => exact fun _ hdone => ih h.2 _ (distinct_insert hdone e.1 h.1)
  exact hfrom [] ⟨List.nodup_nil, trivial⟩

/-! ## Names that are read -/

mutual

/-- **Merging leaves each name once.** -/
theorem distinct_merged : ∀ j : Json, j.merged.Distinct
  | .null | .bool _ | .number _ | .string _ => trivial
  | .array items => distinctItems_merged items
  | .object fields => distinct_ofEntries (distinctFields_merged fields)

theorem distinctItems_merged : ∀ items : List Json, DistinctItems (mergedItems items)
  | [] => trivial
  | j :: rest => ⟨distinct_merged j, distinctItems_merged rest⟩

theorem distinctFields_merged :
    ∀ fields : List (String × Json), DistinctFields (mergedFields fields)
  | [] => trivial
  | (_, j) :: rest => ⟨distinct_merged j, distinctFields_merged rest⟩

end

/-- **JSON that was read from a text has no repeated names.** -/
theorem distinct_of_parse? {text : String} {j : Json} (h : parse? text = some j) :
    j.Distinct := by
  obtain ⟨k, -, rfl⟩ := Option.map_eq_some_iff.1 h
  exact distinct_merged k

end DocStore.Json
