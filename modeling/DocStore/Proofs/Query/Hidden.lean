import DocStore.Proofs.Query.Part

/-!
# What a projection does not see

Two values are `Value.SameBut` a chain of names if they differ at most in the fields at the end of
that chain. Their parts along a chain that lies apart are the same, and so is what a projection
makes of two documents if all that it keeps lies apart: `Projection.apply_keep_eq`.
-/

set_option autoImplicit false

namespace DocStore

open Segments (Apart)

namespace Value

mutual

/-- Values that are the same but for the field at a chain of names. The names are those of the
objects on the way; through an array the chain goes on in any of its items. -/
inductive SameBut : List String → Value → Value → Prop
  | refl (k : List String) (v : Value) : SameBut k v v
  | array {k : List String} {as bs : List Value} (h : SameButItems k as bs) :
      SameBut k (.array as) (.array bs)
  /-- The field is there with another value, or in one of the objects only. -/
  | here {name : String} {m m' : Fields Value} (h : Fields.erase m name = Fields.erase m' name) :
      SameBut [name] (.object m) (.object m')
  | deeper {name : String} {k : List String} {m m' : List (String × Value)}
      (h : SameButFields name k m m') : SameBut (name :: k) (.object m) (.object m')

/-- Arrays whose items are the same but for the field at a chain of names. -/
inductive SameButItems : List String → List Value → List Value → Prop
  | nil (k : List String) : SameButItems k [] []
  | cons {k : List String} {a b : Value} {as bs : List Value} (head : SameBut k a b)
      (tail : SameButItems k as bs) : SameButItems k (a :: as) (b :: bs)

/-- Fields that are the same, but that those of one name are the same but for the rest of a
chain. -/
inductive SameButFields :
    String → List String → List (String × Value) → List (String × Value) → Prop
  | nil (name : String) (k : List String) : SameButFields name k [] []
  | same {name : String} {k : List String} {as bs : List (String × Value)} (e : String × Value)
      (tail : SameButFields name k as bs) : SameButFields name k (e :: as) (e :: bs)
  | field {name : String} {k : List String} {a b : Value} {as bs : List (String × Value)}
      (head : SameBut k a b) (tail : SameButFields name k as bs) :
      SameButFields name k ((name, a) :: as) ((name, b) :: bs)

end

variable {name : String} {k : List String}

theorem SameButFields.get?_of_ne {other : String} (hne : other ≠ name) :
    ∀ {m m' : List (String × Value)}, SameButFields name k m m' →
      Fields.get? m other = Fields.get? m' other
  | _, _, .nil _ _ => rfl
  | _, _, .same e tail => by
      rw [Fields.get?, Fields.get?, tail.get?_of_ne hne]
  | _, _, .field _ tail => by
      rw [Fields.get?, Fields.get?, if_neg hne.symm, if_neg hne.symm, tail.get?_of_ne hne]

theorem SameButFields.get?_self : ∀ {m m' : List (String × Value)}, SameButFields name k m m' →
    Option.Rel (SameBut k) (Fields.get? m name) (Fields.get? m' name)
  | _, _, .nil _ _ => .none
  | _, _, .same (other, v) tail => by
      by_cases h : other = name
      · simpa [Fields.get?, h] using Option.Rel.some (.refl k v)
      · simpa [Fields.get?, h] using tail.get?_self
  | _, _, .field head _ => by simpa [Fields.get?] using Option.Rel.some head

/-- Fields of other names than the first of the chain are the same. -/
theorem SameBut.get?_of_ne {m m' : Fields Value}
    (h : SameBut (name :: k) (.object m) (.object m')) {other : String} (hne : other ≠ name) :
    Fields.get? m other = Fields.get? m' other := by
  cases h with
  | refl => rfl
  | here herase => rw [← Fields.get?_erase_of_ne m hne, herase, Fields.get?_erase_of_ne m' hne]
  | deeper hfields => exact hfields.get?_of_ne hne

/-- The field of the first name of the chain, if that is not the last one. -/
theorem SameBut.get?_self {m m' : Fields Value}
    (h : SameBut (name :: k) (.object m) (.object m')) (hk : k ≠ []) :
    Option.Rel (SameBut k) (Fields.get? m name) (Fields.get? m' name) := by
  cases h with
  | refl =>
      cases Fields.get? m name with
      | none => exact .none
      | some v => exact .some (.refl k v)
  | here => exact absurd rfl hk
  | deeper hfields => exact hfields.get?_self

end Value

namespace Projection

open Value (SameBut SameButItems)

variable {name : String} {k : List String}

/-! ## Parts -/

/-- What is read below a field of two objects that are the same but for a chain, and is the same
below what is the same but for the rest of the chain. -/
theorem bind_get?_eq {m m' : Fields Value} (h : SameBut (name :: k) (.object m) (.object m'))
    {segment : String} {next : Value → Option Value}
    (hnext : segment = name → k ≠ [] ∧ ∀ v w, SameBut k v w → next v = next w) :
    (Fields.get? m segment).bind next = (Fields.get? m' segment).bind next := by
  by_cases hname : segment = name
  · obtain ⟨hk, hbelow⟩ := hnext hname
    subst hname
    have hget := h.get?_self hk
    generalize Fields.get? m segment = v at hget
    generalize Fields.get? m' segment = w at hget
    cases hget with
    | none => rfl
    | some h => exact hbelow _ _ h
  · rw [h.get?_of_ne hname]

mutual

theorem part_eq_of_sameBut {segment : String} {next : Value → Option Value}
    (hnext : segment = name → k ≠ [] ∧ ∀ v w, SameBut k v w → next v = next w) :
    ∀ {v w : Value}, SameBut (name :: k) v w → part segment next v = part segment next w
  | _, _, .refl _ _ => rfl
  | _, _, .array h => by rw [part, part, partItems_eq_of_sameBut hnext h]
  | .object m, .object m', h => by rw [part, part, bind_get?_eq h hnext]

theorem partItems_eq_of_sameBut {segment : String} {next : Value → Option Value}
    (hnext : segment = name → k ≠ [] ∧ ∀ v w, SameBut k v w → next v = next w) :
    ∀ {as bs : List Value}, SameButItems (name :: k) as bs →
      partItems segment next as = partItems segment next bs
  | _, _, .nil _ => rfl
  | _, _, .cons head tail => by
      rw [partItems, partItems, part_eq_of_sameBut hnext head, partItems_eq_of_sameBut hnext tail]

end

/-- **Parts along a chain that lies apart are the same.** -/
theorem partAlong_eq_of_sameBut {s : List String} (hapart : Apart k s) {v w : Value}
    (h : SameBut k v w) : partAlong s v = partAlong s w := by
  induction s generalizing k v w with
  | nil => exact absurd rfl hapart.ne_nil
  | cons segment rest ih =>
      cases k with
      | nil => exact absurd rfl hapart.symm.ne_nil
      | cons name k =>
          refine part_eq_of_sameBut (fun hname => ?_) h
          subst hname
          exact ⟨hapart.of_cons.symm.ne_nil, fun v w => ih hapart.of_cons⟩

/-! ## Projecting -/

variable {d d' : Fields Value}

theorem kept?_eq_of_sameBut {path : String} (hapart : Apart k (Segments.ofPath path))
    (h : SameBut k (.object d) (.object d')) : kept? d path = kept? d' path := by
  unfold kept?
  cases hpath : Segments.ofPath path with
  | nil => rfl
  | cons segment rest =>
      rw [hpath] at hapart
      cases k with
      | nil => exact absurd rfl hapart.symm.ne_nil
      | cons name k =>
          refine bind_get?_eq h fun hname => ?_
          subst hname
          exact ⟨hapart.of_cons.symm.ne_nil, fun v w => partAlong_eq_of_sameBut hapart.of_cons⟩

theorem keepPaths_congr {paths : List String} (h : ∀ p ∈ paths, kept? d p = kept? d' p)
    (out : Fields Value) : keepPaths d out paths = keepPaths d' out paths := by
  induction paths generalizing out with
  | nil => rfl
  | cons p rest ih =>
      obtain ⟨hp, hrest⟩ := List.forall_mem_cons.1 h
      simp only [keepPaths, List.foldl_cons, hp]
      exact ih hrest _

/-- **An inclusion leaks nothing.** Two documents that are the same but for the field at a chain of
names have the same projection, if the chain lies apart from all paths that are kept, and from the
id if that is kept. -/
theorem apply_keep_eq {paths : List String} {withId : Bool}
    (hpaths : ∀ p ∈ paths, Apart k (Segments.ofPath p))
    (hid : withId = true → Apart k (Segments.ofPath idField))
    (h : SameBut k (.object d) (.object d')) :
    (keep paths withId).apply (.object d) = (keep paths withId).apply (.object d') := by
  have hkept : keptId withId d = keptId withId d' := by
    cases withId with
    | false => rfl
    | true =>
        cases k with
        | nil => exact absurd rfl (hid rfl).symm.ne_nil
        | cons name k =>
            have hne : idField ≠ name := by
              rintro rfl
              exact (hid rfl).2 (List.cons_prefix_cons.2 ⟨rfl, List.nil_prefix⟩)
            rw [keptId, keptId, h.get?_of_ne hne]
  rw [apply, apply, applyFields, applyFields, hkept,
    keepPaths_congr fun p hp => kept?_eq_of_sameBut (hpaths p hp) h]

theorem apply_keep_eq_pets :
    let pet : Fields Value := [("_id", .int 1),
      ("tags", .array [.array [.object [("name", .string "dog"), ("rank", .int 2)]],
        .object [("rank", .int 3)]]), ("owner", .object [("name", .string "Ann")])]
    let other : Fields Value := [("_id", .int 1),
      ("tags", .array [.array [.object [("name", .string "dog")]],
        .object [("rank", .array [])]]), ("owner", .object [("name", .string "Ann")])]
    (∀ p ∈ ["owner.name", "tags.name"], Apart ["tags", "rank"] (Segments.ofPath p)) ∧
      (true = true → Apart ["tags", "rank"] (Segments.ofPath idField)) ∧
      SameBut ["tags", "rank"] (.object pet) (.object other) ∧
      (keep ["owner.name", "tags.name"] true).apply (.object pet) =
        (keep ["owner.name", "tags.name"] true).apply (.object other) := by
  intro pet other
  have hpaths : ∀ p ∈ ["owner.name", "tags.name"],
      Apart ["tags", "rank"] (Segments.ofPath p) := by decide
  have hid : true = true → Apart ["tags", "rank"] (Segments.ofPath idField) := fun _ => by decide
  have hsame : SameBut ["tags", "rank"] (.object pet) (.object other) := by
    refine .deeper (.same _ (.field (.array (.cons (.array (.cons (.here ?_) (.nil _)))
      (.cons (.here ?_) (.nil _)))) (.same _ (.nil _ _))))
    · rfl
    · rfl
  exact ⟨hpaths, hid, hsame, apply_keep_eq hpaths hid hsame⟩

end Projection

end DocStore
