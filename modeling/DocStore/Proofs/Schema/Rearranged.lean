import DocStore.Proofs.Schema.Satisfied
import DocStore.Proofs.Value.Key
import DocStore.Proofs.Value.Shuffled

/-!
# Schemas in another order

Required names and declared fields may stand in any order, at any depth of a schema
(`Schema.Rearranged`), and so may the fields of a document: none of these orders decides whether the
document is accepted. `Schema.validate_eq_ok_iff` says what decides.
-/

set_option autoImplicit false

namespace DocStore

/-! ## Keys of shuffled values -/

namespace Value

mutual

theorem Shuffled.keyTree_eq : ∀ {a b : Value}, Shuffled a b → keyTree a = keyTree b
  | _, _, .refl _ => rfl
  | .array as, .array bs, .array h => by rw [keyTree, keyTree, h.itemTrees_eq]
  | .object as, .object cs, .object hkeys h hperm => by
      -- Keys sort the fields of an object, so their order before does not matter.
      have hnames : (Fields.keys (fieldTrees as)).Nodup := by
        rw [fieldTrees_eq_map, Fields.keys, List.map_map]
        exact hkeys
      rw [keyTree, keyTree, KeyTree.object.injEq, mergeSort_eq_iff_perm hnames, h.fieldTrees_eq,
        fieldTrees_eq_map, fieldTrees_eq_map]
      exact hperm.map _

theorem ShuffledItems.itemTrees_eq : ∀ {as bs : List Value}, ShuffledItems as bs →
    itemTrees as = itemTrees bs
  | _, _, .nil => rfl
  | _, _, .cons head tail => by rw [itemTrees, itemTrees, head.keyTree_eq, tail.itemTrees_eq]

theorem ShuffledFields.fieldTrees_eq : ∀ {as bs : List (String × Value)}, ShuffledFields as bs →
    fieldTrees as = fieldTrees bs
  | _, _, .nil => rfl
  | _, _, .cons k head tail => by rw [fieldTrees, fieldTrees, head.keyTree_eq, tail.fieldTrees_eq]

end

/-- **A shuffled value has the same key.** -/
theorem Shuffled.canonicalKey_eq {a b : Value} (h : Shuffled a b) :
    canonicalKey a = canonicalKey b :=
  canonicalKey_eq_iff_keyTree.2 h.keyTree_eq

theorem map_canonicalKey_eq {vs ws : List Value} (h : List.Forall₂ Shuffled vs ws) :
    vs.map canonicalKey = ws.map canonicalKey := by
  induction h with
  | nil => rfl
  | cons head _ ih => rw [List.map_cons, List.map_cons, head.canonicalKey_eq, ih]

end Value

open Value (Shuffled)

/-! ## Rearranged schemas -/

mutual

/-- The schema of a field up to the order of required names and declared fields. -/
inductive FieldSchema.Rearranged : FieldSchema → FieldSchema → Prop
  | mk (own : ValueConstraints) {items items' : Option FieldSchema}
      {object object' : Option Schema} (hitems : FieldSchema.RearrangedItems items items')
      (hobject : FieldSchema.RearrangedObject object object') :
      (FieldSchema.mk own items object).Rearranged (FieldSchema.mk own items' object')

/-- What is asked of items, if anything. -/
inductive FieldSchema.RearrangedItems : Option FieldSchema → Option FieldSchema → Prop
  | none : FieldSchema.RearrangedItems none none
  | some {s s' : FieldSchema} (h : s.Rearranged s') :
      FieldSchema.RearrangedItems (some s) (some s')

/-- What is asked of an object in a field, if anything. -/
inductive FieldSchema.RearrangedObject : Option Schema → Option Schema → Prop
  | none : FieldSchema.RearrangedObject none none
  | some {s s' : Schema} (h : Schema.Rearranged s s') :
      FieldSchema.RearrangedObject (some s) (some s')

/-- A schema up to the order of required names and declared fields. -/
inductive Schema.Rearranged : Schema → Schema → Prop
  | mk {required required' : List String} {as bs cs : List (String × FieldSchema)}
      (additional : Bool) (hrequired : required.Perm required')
      (h : Schema.RearrangedProperties as bs) (hperm : bs.Perm cs) :
      Schema.Rearranged ⟨required, as, additional⟩ ⟨required', cs, additional⟩

/-- Declared fields, themselves in the same order, with rearranged schemas. -/
inductive Schema.RearrangedProperties :
    List (String × FieldSchema) → List (String × FieldSchema) → Prop
  | nil : Schema.RearrangedProperties [] []
  | cons (name : String) {f g : FieldSchema} {as bs : List (String × FieldSchema)}
      (head : f.Rearranged g) (tail : Schema.RearrangedProperties as bs) :
      Schema.RearrangedProperties ((name, f) :: as) ((name, g) :: bs)

end

mutual

theorem FieldSchema.rearranged_refl : (s : FieldSchema) → s.Rearranged s
  | .mk own items object => .mk own (FieldSchema.rearrangedItems_refl items)
      (FieldSchema.rearrangedObject_refl object)

theorem FieldSchema.rearrangedItems_refl : (items : Option FieldSchema) →
    FieldSchema.RearrangedItems items items
  | none => .none
  | some s => .some (FieldSchema.rearranged_refl s)

theorem FieldSchema.rearrangedObject_refl : (object : Option Schema) →
    FieldSchema.RearrangedObject object object
  | none => .none
  | some s => .some (Schema.rearranged_refl s)

theorem Schema.rearranged_refl : (s : Schema) → s.Rearranged s
  | { required, properties, additional } =>
      .mk additional (.refl required) (Schema.rearrangedProperties_refl properties)
        (.refl properties)

theorem Schema.rearrangedProperties_refl : (properties : List (String × FieldSchema)) →
    Schema.RearrangedProperties properties properties
  | [] => .nil
  | (name, f) :: rest =>
      .cons name (FieldSchema.rearranged_refl f) (Schema.rearrangedProperties_refl rest)

end

theorem Schema.RearrangedProperties.keys_eq : ∀ {as bs : List (String × FieldSchema)},
    Schema.RearrangedProperties as bs → Fields.keys as = Fields.keys bs
  | _, _, .nil => rfl
  | _, _, .cons name _ tail => congrArg (name :: ·) tail.keys_eq

theorem Schema.RearrangedProperties.keys_perm {as bs cs : List (String × FieldSchema)}
    (h : Schema.RearrangedProperties as bs) (hperm : bs.Perm cs) :
    (Fields.keys as).Perm (Fields.keys cs) := h.keys_eq ▸ hperm.map _

/-! ## What a shuffled value satisfies -/

section Congr

variable {α β : Type} {R : α → β → Prop} {p : α → Prop} {q : β → Prop}

theorem forall_eq_some_congr {o : Option α} {o' : Option β} (h : Option.Rel R o o')
    (hpq : ∀ a b, R a b → (p a ↔ q b)) : (∀ a, o = some a → p a) ↔ ∀ b, o' = some b → q b := by
  cases h with
  | none => simp
  | some h => simpa using hpq _ _ h

theorem forall_mem_congr {as : List α} {bs : List β} (h : List.Forall₂ R as bs)
    (hpq : ∀ a b, R a b → (p a ↔ q b)) : (∀ a ∈ as, p a) ↔ ∀ b ∈ bs, q b := by
  induction h with
  | nil => simp
  | cons head _ ih => rw [List.forall_mem_cons, List.forall_mem_cons, hpq _ _ head, ih]

end Congr

theorem ValueConstraints.met_congr {c : ValueConstraints} {v w : Value} (h : Shuffled v w) :
    c.Met v ↔ c.Met w := by
  have hcount : (∀ vs, v.array? = some vs → c.Fits vs.length) ↔
      ∀ ws, w.array? = some ws → c.Fits ws.length :=
    forall_eq_some_congr h.array?_rel fun vs ws hvs => by rw [hvs.length_eq]
  have hunique : (∀ vs, v.array? = some vs → c.uniqueItems = true →
      (vs.map Value.canonicalKey).Nodup) ↔ ∀ ws, w.array? = some ws → c.uniqueItems = true →
        (ws.map Value.canonicalKey).Nodup :=
    forall_eq_some_congr h.array?_rel fun vs ws hvs => by rw [Value.map_canonicalKey_eq hvs]
  rw [met_iff, met_iff, h.kind_eq, h.string?_eq, h.float?_eq, hcount, hunique]
  simp only [h.equal_right]

mutual

theorem FieldSchema.Rearranged.satisfied_iff : ∀ {s s' : FieldSchema}, s.Rearranged s' →
    ∀ {v w : Value}, Shuffled v w → (s.Satisfied v ↔ s'.Satisfied w)
  | _, _, .mk own hitems hobject, v, w, h => by
    rw [FieldSchema.satisfied_iff, FieldSchema.satisfied_iff, ValueConstraints.met_congr h]
    refine and_congr_right fun _ => and_congr ?_ ?_
    · exact forall_eq_some_congr h.array?_rel fun _ _ hvs => hitems.satisfied_iff hvs
    · exact forall_eq_some_congr h.object?_rel fun _ _ hm => hobject.satisfied_iff hm

theorem FieldSchema.RearrangedItems.satisfied_iff : ∀ {items items' : Option FieldSchema},
    FieldSchema.RearrangedItems items items' → ∀ {vs ws : List Value},
    List.Forall₂ Shuffled vs ws → ((∀ s, items = some s → ∀ v ∈ vs, s.Satisfied v) ↔
      ∀ s, items' = some s → ∀ w ∈ ws, s.Satisfied w)
  | _, _, .none, _, _, _ => by simp
  | _, _, .some hs, _, _, h => by
    simpa using forall_mem_congr h fun _ _ hvw => hs.satisfied_iff hvw

theorem FieldSchema.RearrangedObject.satisfied_iff : ∀ {object object' : Option Schema},
    FieldSchema.RearrangedObject object object' → ∀ {m m' : Fields Value},
    Shuffled (.object m) (.object m') →
    ((∀ s, object = some s → s.Satisfied m) ↔ ∀ s, object' = some s → s.Satisfied m')
  | _, _, .none, _, _, _ => by simp
  | _, _, .some hs, _, _, h => by simpa using hs.satisfied_iff h

theorem Schema.Rearranged.satisfied_iff : ∀ {s s' : Schema}, s.Rearranged s' →
    ∀ {m m' : Fields Value}, Shuffled (.object m) (.object m') →
    (s.Satisfied m ↔ s'.Satisfied m')
  | _, _, .mk additional hrequired hproperties hperm, m, m', h => by
    have hkeys := hproperties.keys_perm hperm
    have hfields := hproperties.satisfied_iff h
    simp only [Prod.forall] at hfields
    rw [Schema.satisfied_iff, Schema.satisfied_iff, hfields]
    simp only [hrequired.mem_iff, hperm.mem_iff, h.mem_keys, hkeys.mem_iff]

theorem Schema.RearrangedProperties.satisfied_iff : ∀ {as bs : List (String × FieldSchema)},
    Schema.RearrangedProperties as bs → ∀ {m m' : Fields Value},
    Shuffled (.object m) (.object m') →
    ((∀ e ∈ as, ∀ v, Fields.get? m e.1 = some v → e.2.Satisfied v) ↔
      ∀ e ∈ bs, ∀ v, Fields.get? m' e.1 = some v → e.2.Satisfied v)
  | _, _, .nil, _, _, _ => by simp
  | _, _, .cons name head tail, _, _, h => by
    rw [List.forall_mem_cons, List.forall_mem_cons, tail.satisfied_iff h,
      forall_eq_some_congr (h.get?_rel name) fun _ _ hvw => head.satisfied_iff hvw]

end

namespace Schema

/-- **What decides whether a document is accepted.** A schema accepts an object iff the object
satisfies it, in whatever order required names and declared fields stand, and in whatever order the
fields of the object do, at any depth. -/
theorem validate_eq_ok_iff (s : Schema) (fields : Fields Value) :
    (s.validate (.object fields) = .ok () ↔ s.Satisfied fields) ∧
      ∀ s' fields', s.Rearranged s' → Shuffled (.object fields) (.object fields') →
        (s'.validate (.object fields') = .ok () ↔ s.validate (.object fields) = .ok ()) := by
  have hvalidate (s : Schema) (fields : Fields Value) :
      s.validate (.object fields) = .ok () ↔ s.Satisfied fields :=
    checkFields_eq_ok_iff_satisfied s fields
  refine ⟨hvalidate s fields, fun s' fields' hs hfields => ?_⟩
  rw [hvalidate, hvalidate]
  exact (hs.satisfied_iff hfields).symm

theorem validate_eq_ok_iff_shelf :
    let size : Schema := ⟨["w", "h"], [("w", .int), ("h", .int)], false⟩
    let size' : Schema := ⟨["h", "w"], [("h", .int), ("w", .int)], false⟩
    let shelf : Schema :=
      ⟨["size"], [("size", .object size), ("rows", .unique (.array .int))], true⟩
    let shelf' : Schema :=
      ⟨["size"], [("rows", .unique (.array .int)), ("size", .object size')], true⟩
    shelf.validate (.object [("size", .object [("w", .int 80), ("h", .int 200)]),
      ("rows", .array [.int 30, .int 45])]) = .ok () ∧
    shelf'.validate (.object [("rows", .array [.int 30, .int 45]),
      ("size", .object [("h", .int 200), ("w", .int 80)])]) = .ok () := by
  intro size size' shelf shelf'
  have hsize : size.Rearranged size' :=
    .mk false (.swap _ _ []) (rearrangedProperties_refl _) (.swap _ _ [])
  have hshelf : shelf.Rearranged shelf' :=
    .mk true (.refl _) (.cons "size" (.mk _ .none (.some hsize)) (rearrangedProperties_refl _))
      (.swap _ _ [])
  have hdocument : Shuffled
      (.object [("size", .object [("w", .int 80), ("h", .int 200)]),
        ("rows", .array [.int 30, .int 45])])
      (.object [("rows", .array [.int 30, .int 45]),
        ("size", .object [("h", .int 200), ("w", .int 80)])]) := by
    refine .object (by decide) (.cons "size" ?_ (.cons "rows" (.refl _) .nil)) (.swap _ _ [])
    exact Value.shuffled_of_perm (by decide) (.swap _ _ [])
  have haccepted : shelf.validate (.object [("size", .object [("w", .int 80), ("h", .int 200)]),
      ("rows", .array [.int 30, .int 45])]) = .ok () := rfl
  exact ⟨haccepted, ((validate_eq_ok_iff shelf _).2 shelf' _ hshelf hdocument).2 haccepted⟩

end Schema

end DocStore
