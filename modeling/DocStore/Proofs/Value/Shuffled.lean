import DocStore.Json.Basic
import DocStore.Proofs.Value.Apart
import DocStore.Proofs.Value.Json
import DocStore.Value.Order

/-!
# Values up to the order of fields

JSON and values are `Shuffled` if they differ in the order of the fields of their objects, at any
depth. Shuffled values equal the same values, and a scalar that one of them compares with compares
alike with the other. What a path reaches in one of them is what it reaches in the other, shuffled:
`Value.Shuffled.reach`. Shuffled JSON has the same scalars in the same places and stands for
shuffled values.
-/

set_option autoImplicit false

namespace DocStore.Json

mutual

/-- The same JSON up to the order of the fields of its objects. Fields change places only where no
name is repeated. -/
inductive Shuffled : Json → Json → Prop
  | refl (j : Json) : Shuffled j j
  | array {as bs : List Json} (h : ShuffledItems as bs) : Shuffled (.array as) (.array bs)
  | object {as bs cs : List (String × Json)} (hkeys : (Fields.keys as).Nodup)
      (h : ShuffledFields as bs) (hperm : bs.Perm cs) : Shuffled (.object as) (.object cs)

/-- Arrays whose items are shuffled. -/
inductive ShuffledItems : List Json → List Json → Prop
  | nil : ShuffledItems [] []
  | cons {a b : Json} {as bs : List Json} (head : Shuffled a b) (tail : ShuffledItems as bs) :
      ShuffledItems (a :: as) (b :: bs)

/-- Fields with the same names in the same order, whose values are shuffled. -/
inductive ShuffledFields : List (String × Json) → List (String × Json) → Prop
  | nil : ShuffledFields [] []
  | cons (k : String) {a b : Json} {as bs : List (String × Json)} (head : Shuffled a b)
      (tail : ShuffledFields as bs) : ShuffledFields ((k, a) :: as) ((k, b) :: bs)

end

variable {a b : Json}

theorem Shuffled.string?_eq (h : Shuffled a b) : a.string? = b.string? := by
  cases h <;> rfl

theorem Shuffled.toUInt64?_eq (h : Shuffled a b) : a.toUInt64? = b.toUInt64? := by
  cases h <;> rfl

theorem ShuffledFields.related : ∀ {as bs : List (String × Json)}, ShuffledFields as bs →
    Fields.Related (fun _ => Shuffled) as bs
  | _, _, .nil => .nil
  | _, _, .cons k head tail => .cons k head tail.related

theorem Shuffled.exists_object {cs : List (String × Json)} (h : Shuffled a (.object cs)) :
    ∃ as, a = .object as := by
  cases h with
  | refl => exact ⟨cs, rfl⟩
  | object => exact ⟨_, rfl⟩

/-- Shuffled objects have the same names. -/
theorem Shuffled.keys_perm {as cs : List (String × Json)} (h : Shuffled (.object as) (.object cs)) :
    (Fields.keys as).Perm (Fields.keys cs) := by
  cases h with
  | refl => exact .refl _
  | object _ h hperm => exact h.related.keys_perm hperm

end DocStore.Json

namespace DocStore.Value

mutual

/-- The same value up to the order of the fields of its objects. Fields change places only where no
name is repeated. -/
inductive Shuffled : Value → Value → Prop
  | refl (v : Value) : Shuffled v v
  | array {as bs : List Value} (h : ShuffledItems as bs) : Shuffled (.array as) (.array bs)
  | object {as bs cs : List (String × Value)} (hkeys : (Fields.keys as).Nodup)
      (h : ShuffledFields as bs) (hperm : bs.Perm cs) : Shuffled (.object as) (.object cs)

/-- Arrays whose items are shuffled. -/
inductive ShuffledItems : List Value → List Value → Prop
  | nil : ShuffledItems [] []
  | cons {a b : Value} {as bs : List Value} (head : Shuffled a b) (tail : ShuffledItems as bs) :
      ShuffledItems (a :: as) (b :: bs)

/-- Fields with the same names in the same order, whose values are shuffled. -/
inductive ShuffledFields : List (String × Value) → List (String × Value) → Prop
  | nil : ShuffledFields [] []
  | cons (k : String) {a b : Value} {as bs : List (String × Value)} (head : Shuffled a b)
      (tail : ShuffledFields as bs) : ShuffledFields ((k, a) :: as) ((k, b) :: bs)

end

theorem ShuffledItems.forall₂ : ∀ {as bs : List Value}, ShuffledItems as bs →
    List.Forall₂ Shuffled as bs
  | _, _, .nil => .nil
  | _, _, .cons head tail => .cons head tail.forall₂

theorem ShuffledItems.getElem? : ∀ {as bs : List Value}, ShuffledItems as bs → ∀ i : Nat,
    Option.Rel Shuffled as[i]? bs[i]?
  | _, _, .nil, _ => .none
  | _, _, .cons head _, 0 => .some head
  | _, _, .cons _ tail, i + 1 => by
      rw [List.getElem?_cons_succ, List.getElem?_cons_succ]
      exact tail.getElem? i

theorem ShuffledFields.related : ∀ {as bs : List (String × Value)}, ShuffledFields as bs →
    Fields.Related (fun _ => Shuffled) as bs
  | _, _, .nil => .nil
  | _, _, .cons k head tail => .cons k head tail.related

theorem ShuffledFields.length_eq {as bs cs : List (String × Value)} (h : ShuffledFields as bs)
    (hperm : bs.Perm cs) : as.length = cs.length :=
  (Fields.length_eq_of_keys h.related.keys_eq).trans hperm.length_eq

theorem shuffledFields_refl (fields : List (String × Value)) : ShuffledFields fields fields := by
  induction fields with
  | nil => exact .nil
  | cons e rest ih => exact .cons e.1 (.refl e.2) ih

theorem shuffled_of_perm {m m' : Fields Value} (hkeys : (Fields.keys m).Nodup) (h : m.Perm m') :
    Shuffled (object m) (object m') := .object hkeys (shuffledFields_refl m) h

theorem forall₂_refl (vs : List Value) : List.Forall₂ Shuffled vs vs :=
  List.forall₂_same.2 fun v _ => .refl v

/-! ## Equality -/

/-- Whether the field of a name, if there is one, is equal to a value. -/
def equalAt (v : Value) (name : String) (fields : List (String × Value)) : Bool :=
  (Fields.get? fields name).any (equal v)

theorem equalFields_eq_all (fields others : List (String × Value)) :
    equalFields fields others = fields.all fun e => equalAt e.2 e.1 others := by
  induction fields with
  | nil => rfl
  | cons e rest ih =>
      obtain ⟨k, v⟩ := e
      rw [equalFields, ih, List.all_cons, equalAt]
      cases Fields.get? others k <;> rfl

mutual

/-- **A shuffled value equals the same values.** -/
theorem Shuffled.equal_left : ∀ {a b : Value}, Shuffled a b → ∀ w, equal a w = equal b w
  | _, _, .refl _, _ => rfl
  | _, _, .array h, w => by
      cases w with
      | array items => exact h.equal_left items
      | _ => rfl
  | .object as, .object cs, .object _ h hperm, w => by
      cases w with
      | object others =>
          rw [equal, equal, h.length_eq hperm, h.equal_left others, equalFields_eq_all,
            equalFields_eq_all, hperm.all_eq]
      | _ => rfl

theorem ShuffledItems.equal_left : ∀ {as bs : List Value}, ShuffledItems as bs →
    ∀ ws, equalItems as ws = equalItems bs ws
  | _, _, .nil, _ => rfl
  | _, _, .cons head tail, ws => by
      cases ws with
      | nil => rfl
      | cons w ws => rw [equalItems, equalItems, head.equal_left w, tail.equal_left ws]

theorem ShuffledFields.equal_left : ∀ {as bs : List (String × Value)}, ShuffledFields as bs →
    ∀ others, equalFields as others = equalFields bs others
  | _, _, .nil, _ => rfl
  | _, _, .cons k head tail, others => by
      rw [equalFields, equalFields, tail.equal_left others]
      cases Fields.get? others k with
      | none => rfl
      | some w => exact congrArg (· && _) (head.equal_left w)

end

mutual

/-- **The same values equal a shuffled one.** -/
theorem Shuffled.equal_right : ∀ {a b : Value}, Shuffled a b → ∀ v, equal v a = equal v b
  | _, _, .refl _, _ => rfl
  | _, _, .array h, v => by
      cases v with
      | array items => exact h.equal_right items
      | _ => rfl
  | .object as, .object cs, .object hkeys h hperm, v => by
      cases v with
      | object fields =>
          have hat : ∀ e : String × Value, equalAt e.2 e.1 as = equalAt e.2 e.1 cs := by
            intro e
            rw [h.equal_right e.2 e.1, equalAt, equalAt,
              Fields.get?_perm (h.related.keys_eq ▸ hkeys) hperm]
          rw [equal, equal, h.length_eq hperm, equalFields_eq_all, equalFields_eq_all]
          simp only [hat]
      | _ => rfl

theorem ShuffledItems.equal_right : ∀ {as bs : List Value}, ShuffledItems as bs →
    ∀ vs, equalItems vs as = equalItems vs bs
  | _, _, .nil, _ => rfl
  | _, _, .cons head tail, vs => by
      cases vs with
      | nil => rfl
      | cons v vs => rw [equalItems, equalItems, head.equal_right v, tail.equal_right vs]

theorem ShuffledFields.equal_right : ∀ {as bs : List (String × Value)}, ShuffledFields as bs →
    ∀ v name, equalAt v name as = equalAt v name bs
  | _, _, .nil, _, _ => rfl
  | _, _, .cons k head tail, v, name => by
      by_cases hk : k = name
      · simpa [equalAt, Fields.get?, hk] using head.equal_right v
      · simpa [equalAt, Fields.get?, hk] using tail.equal_right v name

end

/-! ## Views -/

section Views

variable {a b : Value}

theorem Shuffled.kind_eq (h : Shuffled a b) : a.kind = b.kind := by
  cases h <;> rfl

theorem Shuffled.string?_eq (h : Shuffled a b) : a.string? = b.string? := by
  cases h <;> rfl

theorem Shuffled.float?_eq (h : Shuffled a b) : a.float? = b.float? := by
  cases h <;> rfl

theorem Shuffled.array?_rel (h : Shuffled a b) :
    Option.Rel (List.Forall₂ Shuffled) a.array? b.array? := by
  cases h with
  | refl =>
      cases a with
      | array items => exact .some (forall₂_refl items)
      | _ => exact .none
  | array h => exact .some h.forall₂
  | object => exact .none

theorem Shuffled.object?_rel (h : Shuffled a b) :
    Option.Rel (fun m m' => Shuffled (.object m) (.object m')) a.object? b.object? := by
  cases h with
  | refl =>
      cases a with
      | object fields => exact .some (.refl _)
      | _ => exact .none
  | array => exact .none
  | object hkeys h hperm => exact .some (.object hkeys h hperm)

theorem Shuffled.get?_rel {m m' : Fields Value} (h : Shuffled (.object m) (.object m'))
    (name : String) : Option.Rel Shuffled (Fields.get? m name) (Fields.get? m' name) := by
  cases h with
  | refl => exact (shuffledFields_refl m).related.get? name
  | object hkeys h hperm => exact h.related.get?_of_perm hkeys hperm name

theorem Shuffled.mem_keys {m m' : Fields Value} (h : Shuffled (.object m) (.object m'))
    {name : String} : name ∈ Fields.keys m ↔ name ∈ Fields.keys m' := by
  cases h with
  | refl => rfl
  | object hkeys h hperm => exact (h.related.keys_perm hperm).mem_iff

theorem Shuffled.compareSameClass?_left (h : Shuffled a b) (w : Value) :
    compareSameClass? a w = compareSameClass? b w := by
  cases h with
  | refl => rfl
  | array => cases w <;> rfl
  | object => cases w <;> rfl

theorem Shuffled.compareSameClass?_right (h : Shuffled a b) (v : Value) :
    compareSameClass? v a = compareSameClass? v b := by
  cases h with
  | refl => rfl
  | array => cases v <;> rfl
  | object => cases v <;> rfl

end Views

/-! ## Paths -/

/-- What an optional value holds, as a list. -/
theorem forall₂_toList {v w : Option Value} (h : Option.Rel Shuffled v w) :
    List.Forall₂ Shuffled v.toList w.toList := by
  cases h with
  | some h => exact .cons h .nil
  | none => exact .nil

mutual

theorem Shuffled.children (segment : String) : ∀ {a b : Value}, Shuffled a b →
    List.Forall₂ Shuffled (children segment a) (children segment b)
  | _, _, .refl v => forall₂_refl _
  | .array as, .array bs, .array h => by
      unfold Value.children
      cases Segments.index? segment with
      | none => exact h.children segment
      | some i =>
          exact forall₂_toList (h.getElem? i)
  | .object as, .object cs, .object hkeys h hperm => by
      unfold Value.children
      exact forall₂_toList (h.related.get?_of_perm hkeys hperm segment)

theorem ShuffledItems.children (segment : String) : ∀ {as bs : List Value}, ShuffledItems as bs →
    List.Forall₂ Shuffled (childrenOfItems segment as) (childrenOfItems segment bs)
  | _, _, .nil => .nil
  | _, _, .cons head tail => List.rel_append (head.children segment) (tail.children segment)

end

/-- **What a path reaches in a shuffled value** is what it reached before, each value shuffled. -/
theorem Shuffled.reach {a b : Value} (segments : List String) (h : Shuffled a b) :
    List.Forall₂ Shuffled (reach segments a) (reach segments b) := by
  induction segments generalizing a b with
  | nil => exact .cons h .nil
  | cons segment rest ih => exact List.rel_flatMap (h.children segment) fun _ _ h => ih h

theorem Shuffled.fieldTerminals {m m' : Fields Value} (h : Shuffled (.object m) (.object m'))
    (path : String) : List.Forall₂ Shuffled (fieldTerminals m path) (fieldTerminals m' path) := by
  rw [fieldTerminals_eq, fieldTerminals_eq]
  exact h.reach _

/-! ## Values of shuffled JSON -/

theorem instant?_eq_of_shuffled {a b : Json} (h : Json.Shuffled a b) : instant? a = instant? b := by
  cases h <;> rfl

/-- A field that marks a date stands alone, so no other order is one. -/
theorem wrappedDate?_eq_of_shuffled {as bs cs : List (String × Json)}
    (h : Json.ShuffledFields as bs) (hperm : bs.Perm cs) : wrappedDate? as = wrappedDate? cs := by
  cases h with
  | nil =>
      rw [List.nil_perm.1 hperm]
  | cons k head tail =>
      cases tail with
      | nil =>
          rw [← List.singleton_perm.1 hperm, wrappedDate?, wrappedDate?,
            instant?_eq_of_shuffled head]
      | cons =>
          match cs, hperm.length_eq with
          | _ :: _ :: _, _ => rfl

mutual

/-- **Shuffled JSON stands for shuffled values.** -/
theorem shuffled_ofJson : ∀ {a b : Json}, Json.Shuffled a b → Shuffled (ofJson a) (ofJson b)
  | _, _, .refl _ => .refl _
  | _, _, .array h => .array (shuffledItems_ofJsonItems h)
  | .object as, .object cs, .object hkeys h hperm => by
      rw [ofJson_object_eq, ofJson_object_eq, wrappedDate?_eq_of_shuffled h hperm]
      cases wrappedDate? cs with
      | some t => exact .refl _
      | none =>
          refine .object ?_ (shuffledFields_ofJsonFields h) ?_
          · rw [keys_ofJsonFields]
            exact hkeys
          · rw [ofJsonFields_eq_map, ofJsonFields_eq_map]
            exact hperm.map _

theorem shuffledItems_ofJsonItems : ∀ {as bs : List Json}, Json.ShuffledItems as bs →
    ShuffledItems (ofJsonItems as) (ofJsonItems bs)
  | _, _, .nil => .nil
  | _, _, .cons head tail => .cons (shuffled_ofJson head) (shuffledItems_ofJsonItems tail)

theorem shuffledFields_ofJsonFields : ∀ {as bs : List (String × Json)},
    Json.ShuffledFields as bs → ShuffledFields (ofJsonFields as) (ofJsonFields bs)
  | _, _, .nil => .nil
  | _, _, .cons k head tail => .cons k (shuffled_ofJson head) (shuffledFields_ofJsonFields tail)

end

end DocStore.Value
