import Mathlib.Logic.Relation
import DocStore.Proofs.Update.Change

/-!
# What updates leave alone

A write or a removal at a path edits the one top-level field that the path starts with. So an update
makes nothing but edits of the fields that it names, `Update.edits_apply`: it changes no other
field, and does not move one away from the front.
-/

set_option autoImplicit false

namespace DocStore

/-! ## Edits -/

namespace Fields

variable {α : Type} {names : List String} {m m' : Fields α}

/-- One field of a given name is written or removed. -/
inductive Edit (names : List String) : Fields α → Fields α → Prop
  | write (m : Fields α) {name : String} (h : name ∈ names) (v : α) : Edit names m (insert m name v)
  | remove (m : Fields α) {name : String} (h : name ∈ names) : Edit names m (erase m name)

/-- Fields of given names are written and removed. -/
abbrev Edits (names : List String) : Fields α → Fields α → Prop :=
  Relation.ReflTransGen (Edit names)

theorem Edits.mono {others : List String} (hsub : names ⊆ others) (h : Edits names m m') :
    Edits others m m' := by
  refine Relation.ReflTransGen.mono ?_ m m' h
  intro m m' hedit
  cases hedit with
  | write hname v => exact .write m (hsub hname) v
  | remove hname => exact .remove m (hsub hname)

/-- Other fields keep their values. -/
theorem Edits.get?_eq (h : Edits names m m') {name : String} (hne : name ∉ names) :
    get? m' name = get? m name := by
  induction h with
  | refl => rfl
  | @tail m₁ m₂ _ hedit ih =>
      rw [← ih]
      cases hedit with
      | write hname v => exact get?_insert_of_ne m₁ v (ne_of_mem_of_not_mem hname hne).symm
      | remove hname => exact get?_erase_of_ne m₁ (ne_of_mem_of_not_mem hname hne).symm

/-- Another field at the front stays there. -/
theorem Edits.head?_eq (h : Edits names m m') {e : String × α} (hhead : m.head? = some e)
    (hne : e.1 ∉ names) : m'.head? = some e := by
  induction h with
  | refl => exact hhead
  | @tail m₁ m₂ _ hedit ih =>
      obtain ⟨rest, rfl⟩ := List.head?_eq_some_iff.1 ih
      cases hedit with
      | write hname v => simp [insert, (ne_of_mem_of_not_mem hname hne).symm]
      | remove hname => simp [erase, (ne_of_mem_of_not_mem hname hne).symm]

theorem Edits.nodup_keys (h : Edits names m m') (hkeys : (keys m).Nodup) : (keys m').Nodup := by
  induction h with
  | refl => exact hkeys
  | tail _ hedit ih =>
      cases hedit with
      | write _ v => exact nodup_keys_insert ih _ v
      | remove _ => exact nodup_keys_erase ih _

end Fields

/-! ## Writing at a path -/

namespace Fields

variable {m m' : Fields Value} {path name : String}

theorem edits_setPath? {v : Value} (h : setPath? m path v = .ok m') :
    Edits [Segments.top path] m m' := by
  obtain ⟨rest, hrest⟩ := ofPath_eq_top_cons path
  obtain ⟨w, e, hw⟩ := Value.write_object path v (Segments.top path) rest m
  cases e with
  | none =>
      have hm : m' = insert m (Segments.top path) w := by
        simpa [setPath?, setPath, hrest, hw] using h.symm
      rw [hm]
      exact .single (.write m List.mem_cons_self w)
  | some e => simp [setPath?, setPath, hrest, hw] at h

theorem edits_erasePath (m : Fields Value) (path : String) :
    Edits [Segments.top path] m (erasePath m path).1 := by
  obtain ⟨rest, hrest⟩ := ofPath_eq_top_cons path
  unfold erasePath
  rw [hrest]
  split
  · rename_i fields old h
    rcases Value.remove?_object h with hw | ⟨v, hw⟩
    · cases hw
      exact .single (.remove m List.mem_cons_self)
    · cases hw
      exact .single (.write m List.mem_cons_self v)
  · exact .refl

end Fields

/-! ## Changes -/

open Fields (Edits)

variable {m m' : Fields Value} {name : String} {changed : Bool}

theorem Change.edits_assign {path : String} {v : Value} (h : assign m path v = .ok (m', changed)) :
    Edits [Segments.top path] m m' := by
  rcases assign_cases h with ⟨_, -, -, rfl, -⟩ | ⟨hset, -⟩
  · exact .refl
  · exact Fields.edits_setPath? hset

/-- **A change edits the field that its path starts with.** -/
theorem Change.edits_apply {c : Change} (h : c.apply m = .ok (m', changed)) :
    Edits [Segments.top c.path] m m' := by
  cases c with
  | set path v => exact edits_assign h
  | increment path delta =>
      obtain ⟨_, -, hassign⟩ := exists_assign_of_increment h
      exact edits_assign hassign
  | unset path =>
      rw [apply_unset] at h
      cases h
      exact Fields.edits_erasePath m path
  | push path items =>
      rcases apply_push_cases h with ⟨existing, -, hset, -⟩ | ⟨-, hset, -⟩
      · exact Fields.edits_setPath? hset
      · exact Fields.edits_setPath? hset

/-- A change that reports none leaves the fields alone. -/
theorem Change.eq_of_apply {c : Change} (h : c.apply m = .ok (m', false)) : m' = m := by
  have hassign {path : String} {v : Value} (h : assign m path v = .ok (m', false)) : m' = m := by
    rcases assign_cases h with ⟨_, -, -, hsame, -⟩ | ⟨-, hchanged⟩
    · exact hsame
    · cases hchanged
  cases c with
  | set path v => exact hassign h
  | increment path delta =>
      obtain ⟨_, -, hnext⟩ := exists_assign_of_increment h
      exact hassign hnext
  | unset path =>
      rw [apply_unset] at h
      obtain ⟨rfl, hnone⟩ := Prod.mk.inj (Except.ok.inj h)
      -- Only a path that leads nowhere is removed without being noticed.
      unfold Fields.erasePath at hnone ⊢
      split at hnone
      · cases hnone
      · rfl
  | push path items =>
      rcases apply_push_cases h with ⟨existing, hpath, hset, hnone⟩ | ⟨-, -, hnone⟩
      · obtain rfl : items = [] := by simpa using hnone
        rw [List.append_nil, Fields.setPath?_self hpath] at hset
        exact (Except.ok.inj hset).symm
      · cases hnone

/-! ## Updates -/

namespace Update

theorem edits_applyChanges {names : List String} {changes : List Change}
    (hnames : ∀ c ∈ changes, Segments.top c.path ∈ names)
    (h : applyChanges m changes = .ok (m', changed)) : Edits names m m' := by
  induction changes generalizing m changed with
  | nil =>
      cases h
      exact .refl
  | cons c rest ih =>
      obtain ⟨m₁, now, later, hc, hrest, -⟩ := applyChanges_cons_eq_ok.1 h
      obtain ⟨htop, hnames⟩ := List.forall_mem_cons.1 hnames
      have hfirst : Edits names m m₁ :=
        (Change.edits_apply hc).mono (List.cons_subset.2 ⟨htop, List.nil_subset _⟩)
      exact hfirst.trans (ih hnames hrest)

theorem eq_of_applyChanges {changes : List Change} (h : applyChanges m changes = .ok (m', false)) :
    m' = m := by
  induction changes generalizing m with
  | nil =>
      cases h
      rfl
  | cons c rest ih =>
      obtain ⟨m₁, now, later, hc, hrest, hnone⟩ := applyChanges_cons_eq_ok.1 h
      obtain ⟨rfl, rfl⟩ := Bool.or_eq_false_iff.1 hnone.symm
      rw [ih hrest, Change.eq_of_apply hc]

theorem mem_mention {names : List String} {n : String} :
    name ∈ mention names n ↔ name ∈ names ∨ name = n := by
  unfold mention
  split
  · rename_i h
    have hn : n ∈ names := by simpa using h
    constructor
    · exact .inl
    · rintro (h | rfl)
      · exact h
      · exact hn
  · simp

/-- The fields that an update names are those that its paths start with. -/
theorem mem_touched {changes : List Change} :
    name ∈ touched changes ↔ ∃ c ∈ changes, name = Segments.top c.path := by
  have hfold : ∀ names, name ∈ changes.foldl (fun names c =>
      mention names (Segments.top c.path)) names ↔
        name ∈ names ∨ ∃ c ∈ changes, name = Segments.top c.path := by
    induction changes with
    | nil => simp
    | cons c rest ih =>
        intro names
        rw [List.foldl_cons, ih, mem_mention]
        simp [or_assoc]
  simpa [touched] using hfold []

/-- What an update touches are the fields that its paths start with. -/
theorem touched_of_apply {u : Update} {effect : UpdateEffect}
    (h : u.apply m = .ok (m', effect)) : effect.touched = touched u.changes :=
  (apply_eq_ok.1 h).2

/-- **An update edits the fields that it names.** -/
theorem edits_apply {u : Update} {effect : UpdateEffect} (h : u.apply m = .ok (m', effect)) :
    Edits effect.touched m m' := by
  obtain ⟨hchanges, htouched⟩ := apply_eq_ok.1 h
  rw [htouched]
  exact edits_applyChanges (fun c hc => mem_touched.2 ⟨c, hc, rfl⟩) hchanges

/-- **An update that reports no change leaves the fields alone.** -/
theorem eq_of_apply {u : Update} {effect : UpdateEffect} (h : u.apply m = .ok (m', effect))
    (hnone : effect.modified = false) : m' = m := by
  obtain ⟨hchanges, -⟩ := apply_eq_ok.1 h
  rw [hnone] at hchanges
  exact eq_of_applyChanges hchanges

/-- **An update changes no field that it does not name.** -/
theorem get?_apply {u : Update} {effect : UpdateEffect} (h : u.apply m = .ok (m', effect))
    (hne : name ∉ effect.touched) : Fields.get? m' name = Fields.get? m name :=
  (edits_apply h).get?_eq hne

end Update

end DocStore
