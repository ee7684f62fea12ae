import DocStore.Proofs.Update.Brings
import DocStore.Proofs.Update.Selected
import DocStore.Proofs.Value.Definite
import DocStore.Proofs.Value.Shuffled

/-!
# Updates of different fields

Two updates that have no field in common do not see each other: each of them does what it does
alone, in whatever order they are applied, and the fields that come out are the same up to their
order: `Update.Commute`. So what comes out in the two orders is equal, unless a NaN stands in the
document that neither update takes away.
-/

set_option autoImplicit false

namespace DocStore

/-! ## Two updates in turn -/

namespace Update

open Fields (select)

variable {u w : Update} {d d' m m' : Fields Value} {effect : UpdateEffect}

/-- Two updates in turn, with what each of them did. -/
def inTurn (u w : Update) (m : Fields Value) :
    Result (Fields Value × UpdateEffect × UpdateEffect) := do
  let (m, first) ← u.apply m
  let (m, second) ← w.apply m
  return (m, first, second)

theorem inTurn_eq_ok {first second : UpdateEffect} :
    inTurn u w d = .ok (m', first, second) ↔
      ∃ m, u.apply d = .ok (m, first) ∧ w.apply m = .ok (m', second) := by
  constructor
  · intro h
    obtain ⟨⟨m, _⟩, hu, h⟩ := bind_eq_ok.1 h
    obtain ⟨⟨_, _⟩, hw, h⟩ := bind_eq_ok.1 h
    cases h
    exact ⟨m, hu, hw⟩
  · rintro ⟨m, hu, hw⟩
    rw [inTurn, hu]
    show (w.apply m >>= _) = _
    rw [hw]
    rfl

/-- **An update sees the fields that it names only**: where these are the same, it succeeds again
with the same effect, and makes the same of them. -/
theorem exists_apply_of_select {p : String → Bool} (hu : u.Names p)
    (hsame : select p d' = select p d) (h : u.apply d = .ok (m, effect)) :
    ∃ m', u.apply d' = .ok (m', effect) ∧ select p m' = select p m := by
  have hselected : (u.apply d').map (Prod.map (select p) id) = .ok (select p m, effect) := by
    rw [← apply_select d' hu, hsame, apply_select d hu, h]
    rfl
  obtain ⟨⟨m', effect'⟩, happly, heq⟩ := map_eq_ok.1 hselected
  obtain ⟨hm, rfl⟩ := Prod.mk.inj heq
  exact ⟨m', happly, hm⟩

/-- **Updates of different fields change places.** Each of them has its effect, and the fields are
the same up to their order. -/
theorem exists_inTurn_of_names {p : String → Bool} (hu : u.Names p)
    (hw : w.Names fun name => !p name) {first second : UpdateEffect}
    (h : inTurn u w d = .ok (m, first, second)) :
    ∃ m', inTurn w u d = .ok (m', second, first) ∧ m.Perm m' := by
  obtain ⟨d₁, hd₁, hm⟩ := inTurn_eq_ok.1 h
  -- Neither update changes the fields of the other.
  have hothers₁ := select_apply hu hd₁
  obtain ⟨d₂, hd₂, hothers⟩ := exists_apply_of_select hw hothers₁.symm hm
  have hown₂ : select p d₂ = select p d := by
    simpa only [Bool.not_not] using select_apply hw hd₂
  obtain ⟨m', hm', hown⟩ := exists_apply_of_select hu hown₂ hd₁
  have hparts : select p m = select p m' := by
    calc
      select p m = select p d₁ := by simpa only [Bool.not_not] using select_apply hw hm
      _ = select p m' := hown.symm
  have hrest : select (fun name => !p name) m = select (fun name => !p name) m' := by
    calc
      select (fun name => !p name) m = select (fun name => !p name) d₂ := hothers.symm
      _ = select (fun name => !p name) m' := (select_apply hu hm').symm
  exact ⟨m', inTurn_eq_ok.2 ⟨d₂, hd₂, hm'⟩, Fields.perm_of_select hparts hrest⟩

/-! ## Apart -/

/-- No path of one update starts with the field that a path of the other starts with. -/
def Apart (u w : Update) : Prop :=
  ∀ c ∈ u.changes, ∀ c' ∈ w.changes, Segments.top c.path ≠ Segments.top c'.path

theorem Apart.symm (h : Apart u w) : Apart w u := fun c hc c' hc' heq => h c' hc' c hc heq.symm

/-- The two orders of two updates, side by side. -/
structure Commute (u w : Update) (d : Fields Value) : Prop where
  /-- Both orders succeed or none. -/
  succeeds_iff : (∃ r, inTurn u w d = .ok r) ↔ ∃ r, inTurn w u d = .ok r
  /-- Each update has the effect that it has alone. -/
  alone : ∀ m first second, inTurn u w d = .ok (m, first, second) →
    (∃ m₁, u.apply d = .ok (m₁, first)) ∧ ∃ m₂, w.apply d = .ok (m₂, second)
  /-- It has this effect in the other order too, and the fields are the same up to their order. -/
  reversed : ∀ m first second, inTurn u w d = .ok (m, first, second) →
    ∃ m', inTurn w u d = .ok (m', second, first) ∧ m.Perm m'
  /-- What comes out in one order equals the same values as what comes out in the other. -/
  equal_same : ∀ m effects m' effects', inTurn u w d = .ok (m, effects) →
    inTurn w u d = .ok (m', effects') → ∀ v, Value.equal v (.object m) = Value.equal v (.object m')
  /-- The two equal each other iff no NaN stands in them, which would not even equal itself. -/
  equal_iff : ∀ m effects m' effects', inTurn u w d = .ok (m, effects) →
    inTurn w u d = .ok (m', effects') →
      (Value.equal (.object m) (.object m') = true ↔ ¬ (Value.object m).HoldsNaN)
  /-- No NaN comes in. -/
  nan : ∀ m effects, inTurn u w d = .ok (m, effects) → (Value.object m).HoldsNaN →
    (Value.object d).HoldsNaN

theorem exists_inTurn_of_apart (h : Apart u w) {first second : UpdateEffect}
    (hm : inTurn u w d = .ok (m, first, second)) :
    ∃ m', inTurn w u d = .ok (m', second, first) ∧ m.Perm m' := by
  have hu : u.Names fun name => name ∈ touched u.changes := by
    intro c hc
    simpa using mem_touched.2 ⟨c, hc, rfl⟩
  have hw : w.Names fun name => !decide (name ∈ touched u.changes) := by
    intro c' hc'
    have hnot : Segments.top c'.path ∉ touched u.changes := by
      intro hmem
      obtain ⟨c, hc, heq⟩ := mem_touched.1 hmem
      exact h c hc c' hc' heq.symm
    simpa using hnot
  exact exists_inTurn_of_names hu hw hm

theorem succeeds_of_apart (h : Apart u w) (hm : ∃ r, inTurn u w d = .ok r) :
    ∃ r, inTurn w u d = .ok r := by
  obtain ⟨⟨m, first, second⟩, hm⟩ := hm
  obtain ⟨m', hm', -⟩ := exists_inTurn_of_apart h hm
  exact ⟨_, hm'⟩

theorem alone_of_apart (h : Apart u w) {first second : UpdateEffect}
    (hm : inTurn u w d = .ok (m, first, second)) :
    (∃ m₁, u.apply d = .ok (m₁, first)) ∧ ∃ m₂, w.apply d = .ok (m₂, second) := by
  obtain ⟨m₁, hm₁, -⟩ := inTurn_eq_ok.1 hm
  obtain ⟨m', hm', -⟩ := exists_inTurn_of_apart h hm
  obtain ⟨m₂, hm₂, -⟩ := inTurn_eq_ok.1 hm'
  exact ⟨⟨m₁, hm₁⟩, m₂, hm₂⟩

theorem nodup_keys_inTurn {effects : UpdateEffect × UpdateEffect}
    (h : inTurn u w d = .ok (m, effects)) (hkeys : (Fields.keys d).Nodup) :
    (Fields.keys m).Nodup := by
  obtain ⟨first, second⟩ := effects
  obtain ⟨d₁, hd₁, hm⟩ := inTurn_eq_ok.1 h
  exact (edits_apply hm).nodup_keys ((edits_apply hd₁).nodup_keys hkeys)

/-- What comes out in the two orders equals the same values. -/
theorem equal_inTurn_of_apart (h : Apart u w) (hd : (Fields.keys d).Nodup)
    {effects effects' : UpdateEffect × UpdateEffect} (hm : inTurn u w d = .ok (m, effects))
    (hm' : inTurn w u d = .ok (m', effects')) (v : Value) :
    Value.equal v (.object m) = Value.equal v (.object m') := by
  obtain ⟨first, second⟩ := effects
  obtain ⟨m₂, hm₂, hperm⟩ := exists_inTurn_of_apart h hm
  rw [hm'] at hm₂
  cases hm₂
  exact (Value.shuffled_of_perm (nodup_keys_inTurn hm hd) hperm).equal_right v

/-- What lasts through edits lasts through two updates in turn. -/
theorem everywhere_inTurn {L : Value → Prop} {J : Json → Prop}
    (hlasting : Value.Lasting L Value.DistinctNames)
    (hconveys : Value.Conveys J L Value.DistinctNames)
    {j k : Json} (hj : J j) (hk : J k) (hu : ofJson j = .ok u) (hw : ofJson k = .ok w)
    {effects : UpdateEffect × UpdateEffect} (h : inTurn u w d = .ok (m, effects))
    (hd : Value.Everywhere L Value.DistinctNames (.object d)) :
    Value.Everywhere L Value.DistinctNames (.object m) := by
  obtain ⟨first, second⟩ := effects
  obtain ⟨d₁, hd₁, hm⟩ := inTurn_eq_ok.1 h
  have hfirst := everywhere_apply hlasting (brings_ofJson hconveys hj hu) hd hd₁
  exact everywhere_apply hlasting (brings_ofJson hconveys hk hw) hfirst hm

/-- **Updates of different fields commute.** -/
theorem commute_of_apart {j k : Json} (hj : j.Proper) (hk : k.Proper) (hu : ofJson j = .ok u)
    (hw : ofJson k = .ok w) (hd : (Value.object d).Distinct) (h : Apart u w) : Commute u w d where
  succeeds_iff := ⟨succeeds_of_apart h, succeeds_of_apart h.symm⟩
  alone _ _ _ hm := alone_of_apart h hm
  reversed _ _ _ hm := exists_inTurn_of_apart h hm
  equal_same _ _ _ _ hm hm' := equal_inTurn_of_apart h hd.1 hm hm'
  equal_iff m _ m' _ hm hm' := by
    rw [← equal_inTurn_of_apart h hd.1 hm hm' (.object m)]
    exact Value.equal_self_iff
      (everywhere_inTurn Value.lasting_distinct Value.conveys_distinct hj.1 hk.1 hu hw hm hd)
  nan m _ hm hnan := by
    by_contra hnone
    -- A definite document stays definite.
    have hdefinite : (Value.object m).Definite := everywhere_inTurn Value.lasting_definite
      Value.conveys_definite hj hk hu hw hm ((Value.definite_iff hd).2 hnone)
    exact hdefinite.not_holdsNaN hnan

/-- A dog gets a name and a tag, its owner moves out of a city and it grows older, in either
order. -/
theorem commute_of_apart_rex :
    let rex : Fields Value := [("_id", .int 1), ("age", .int 3),
      ("owner", .object [("city", .string "Oslo")])]
    let named : Json := .object [("$set", .object [("name", .string "Rex")]),
      ("$push", .object [("tags", .string "wet")])]
    let older : Json := .object [("$unset", .object [("owner.city", .string "")]),
      ("$inc", .object [("age", .number (.integer 1))])]
    let u : Update := { changes := [.set "name" (.string "Rex"), .push "tags" [.string "wet"]] }
    let w : Update := { changes := [.unset "owner.city", .increment "age" (.int 1)] }
    named.Proper ∧ older.Proper ∧ ofJson named = .ok u ∧ ofJson older = .ok w ∧ Apart u w ∧
      (Value.object rex).Distinct ∧ Commute u w rex ∧
      inTurn u w rex = .ok ([("_id", .int 1), ("age", .int 4), ("owner", .object []),
          ("name", .string "Rex"), ("tags", .array [.string "wet"])],
        { modified := true, touched := ["name", "tags"] },
        { modified := true, touched := ["owner", "age"] }) := by
  intro rex named older u w
  have hnamed : named.Proper := by
    refine ⟨?_, ⟨trivial, trivial⟩, ⟨trivial, trivial⟩, trivial⟩
    simp [named, Json.Distinct, Json.DistinctFields, Fields.keys]
  have holder : older.Proper := by
    refine ⟨?_, ⟨trivial, trivial⟩, ⟨rfl, trivial⟩, trivial⟩
    simp [older, Json.Distinct, Json.DistinctFields, Fields.keys]
  have hu : ofJson named = .ok u := rfl
  have hw : ofJson older = .ok w := rfl
  have hapart : Apart u w := by
    unfold Apart
    decide
  have hrex : (Value.object rex).Distinct :=
    ⟨by decide, trivial, trivial, ⟨by decide, trivial, trivial⟩, trivial⟩
  exact ⟨hnamed, holder, hu, hw, hapart, hrex,
    commute_of_apart hnamed holder hu hw hrex hapart, rfl⟩

/-- Beside a NaN, what two updates of different fields make of a document in the two orders is not
equal. -/
theorem not_equal_inTurn_nan :
    let d : Fields Value := [("_id", .int 1), ("x", .float (Float.ofBits 0x7FF8000000000000))]
    ∃ u w m effects m' effects',
      ofJson (.object [("$set", .object [("a", .number (.integer 1))])]) = .ok u ∧
      ofJson (.object [("$set", .object [("b", .number (.integer 2))])]) = .ok w ∧ Apart u w ∧
      (Value.object d).Distinct ∧ inTurn u w d = .ok (m, effects) ∧
      inTurn w u d = .ok (m', effects') ∧ Value.equal (.object m) (.object m') = false := by
  intro d
  let u : Update := { changes := [.set "a" (.int 1)] }
  let w : Update := { changes := [.set "b" (.int 2)] }
  have hapart : Apart u w := by
    unfold Apart
    decide
  exact ⟨u, w, d ++ [("a", .int 1), ("b", .int 2)], _, d ++ [("b", .int 2), ("a", .int 1)], _,
    rfl, rfl, hapart, ⟨by decide, trivial, trivial, trivial⟩, rfl, rfl, by decide⟩

end Update

end DocStore
