import DocStore.Proofs.Number.Sum
import DocStore.Proofs.Update.Change
import DocStore.Proofs.Update.Reading
import DocStore.Proofs.Value.Edit
import DocStore.Proofs.Value.Json

/-!
# What updates bring

The values that an update brings come from the JSON that it was read from, or are sums. So a
property at every depth that editing keeps, and that sums have, is kept by an update if the JSON
conveys it: `Update.everywhere_apply`. The same holds of the fields that it makes from the demands
of a filter.
-/

set_option autoImplicit false

namespace DocStore

open Value (Everywhere EverywhereItems everywhereItems_iff)

/-! ## Changes -/

/-- A change that brings values with a property only. -/
def Change.Brings (P : Value → Prop) : Change → Prop
  | set _ v => P v
  | increment _ delta => P delta
  | unset _ => True
  | push _ items => ∀ v ∈ items, P v

/-- An update that brings values with a property only. -/
def Update.Brings (P : Value → Prop) (u : Update) : Prop := ∀ c ∈ u.changes, c.Brings P

variable {L : Value → Prop} {N : List (String × Value) → Prop} (hlast : Value.Lasting L N)
variable {m m' : Fields Value} {changed : Bool}

namespace Change

/-- A sum is an integer or a finite double. -/
theorem sum_cases {path : String} {a b v : Value} (h : sum path a b = .ok v) :
    (∃ n, v = .int n) ∨ ∃ f, v = .float f ∧ Binary64.isFinite f = true := by
  unfold sum at h
  split at h
  · split at h <;> cases h
    · exact .inl ⟨_, rfl⟩
    · exact .inr ⟨_, rfl, Binary64.isFinite_add_ofInt64 _ _⟩
  · split at h
    · cases h
    · dsimp only at h
      split at h
      · rename_i hfinite
        cases h
        exact .inr ⟨_, rfl, hfinite⟩
      · cases h

include hlast

theorem everywhere_sum {path : String} {a b v : Value} (h : sum path a b = .ok v) :
    Everywhere L N v := by
  obtain ⟨n, rfl⟩ | ⟨f, rfl, hf⟩ := sum_cases h
  · exact hlast.int n
  · exact hlast.float f hf

theorem everywhere_assign {path : String} {v : Value} (hm : Everywhere L N (.object m))
    (hv : Everywhere L N v) (h : assign m path v = .ok (m', changed)) :
    Everywhere L N (.object m') := by
  rcases assign_cases h with ⟨_, -, -, rfl, -⟩ | ⟨hset, -⟩
  · exact hm
  · exact Everywhere.setPath? hlast.toEditable hm hv hset

/-- **One change.** -/
theorem everywhere_apply {c : Change} (hc : c.Brings (Everywhere L N))
    (hm : Everywhere L N (.object m)) (h : c.apply m = .ok (m', changed)) :
    Everywhere L N (.object m') := by
  cases c with
  | set path v => exact everywhere_assign hlast hm hc h
  | increment path delta =>
      obtain ⟨v, hv, hassign⟩ := exists_assign_of_increment h
      refine everywhere_assign hlast hm ?_ hassign
      cases hget : Fields.getPath? m path with
      | none =>
          rw [hget] at hv
          cases hv
          exact hc
      | some current =>
          rw [hget] at hv
          exact everywhere_sum hlast hv
  | unset path =>
      rw [apply_unset] at h
      cases h
      exact Everywhere.erasePath hlast.toEditable hm path
  | push path items =>
      have hnew : EverywhereItems L N items := everywhereItems_iff.2 hc
      rcases apply_push_cases h with ⟨existing, hexisting, hset, -⟩ | ⟨-, hset, -⟩
      · have hold : EverywhereItems L N existing := Everywhere.descend? hm hexisting
        have hall : Everywhere L N (.array (existing ++ items)) :=
          Value.everywhereItems_append hold hnew
        exact Everywhere.setPath? hlast.toEditable hm hall hset
      · have hall : Everywhere L N (.array items) := hnew
        exact Everywhere.setPath? hlast.toEditable hm hall hset

end Change

/-! ## Updates -/

namespace Update

section Kept

include hlast

theorem everywhere_applyChanges {changes : List Change}
    (hchanges : ∀ c ∈ changes, c.Brings (Everywhere L N)) (hm : Everywhere L N (.object m))
    (h : applyChanges m changes = .ok (m', changed)) : Everywhere L N (.object m') := by
  induction changes generalizing m changed with
  | nil =>
      cases h
      exact hm
  | cons c rest ih =>
      obtain ⟨hc, hrest⟩ := List.forall_mem_cons.1 hchanges
      obtain ⟨m₁, now, later, happly, hlater, -⟩ := applyChanges_cons_eq_ok.1 h
      exact ih hrest (Change.everywhere_apply hlast hc hm happly) hlater

/-- **An update keeps a property that its values have.** -/
theorem everywhere_apply {u : Update} (hu : u.Brings (Everywhere L N)) {effect : UpdateEffect}
    (hm : Everywhere L N (.object m)) (h : u.apply m = .ok (m', effect)) :
    Everywhere L N (.object m') :=
  everywhere_applyChanges hlast hu hm (apply_eq_ok.1 h).1

theorem everywhere_seed {seeds : List (String × Value)} (hseeds : ∀ e ∈ seeds, Everywhere L N e.2)
    (hm : Everywhere L N (.object m)) (h : seed m seeds = .ok m') :
    Everywhere L N (.object m') := by
  induction seeds generalizing m with
  | nil =>
      cases h
      exact hm
  | cons e rest ih =>
      obtain ⟨path, v⟩ := e
      obtain ⟨hv, hrest⟩ := List.forall_mem_cons.1 hseeds
      obtain ⟨m₁, hset, h⟩ := bind_eq_ok.1 h
      exact ih hrest (Everywhere.setPath? hlast.toEditable hm hv hset) h

/-- The fields of a new document have a property that the demands of the filter have. -/
theorem everywhere_newFields {u : Update} (hu : u.Brings (Everywhere L N)) {f : Filter}
    (hf : ∀ e ∈ f.equalitySeeds, Everywhere L N e.2) (h : u.newFields f = .ok m') :
    Everywhere L N (.object m') := by
  have hempty : Everywhere L N (.object []) := ⟨hlast.empty, trivial⟩
  obtain ⟨m₁, hseed, h⟩ := bind_eq_ok.1 h
  obtain ⟨⟨m₂, effect⟩, happly, h⟩ := bind_eq_ok.1 h
  cases h
  exact everywhere_apply hlast hu (everywhere_seed hlast hf hempty hseed) happly

end Kept

/-! ## Reading -/

section Reading

variable {J : Json → Prop} (hJ : Value.Conveys J L N)
include hJ

theorem forall_mem_pushItems {raw : Json} (h : J raw) : ∀ v ∈ pushItems raw, Everywhere L N v := by
  unfold pushItems
  split
  · rename_i items
    have harray : J (.array items) := hJ.fields h _ List.mem_cons_self
    exact everywhereItems_iff.1 (hJ.valueItems items (hJ.items harray))
  · exact List.forall_mem_singleton.2 (hJ.value _ h)

theorem brings_readChange {op path : String} {raw : Json} (hraw : J raw) {c : Change}
    (h : readChange op path raw = .ok c) : c.Brings (Everywhere L N) := by
  unfold readChange at h
  split at h
  · cases h
    exact hJ.value _ hraw
  · dsimp only at h
    split at h
    · cases h
      exact hJ.value _ hraw
    · cases h
  · cases h
    trivial
  · cases h
    exact forall_mem_pushItems hJ hraw
  · split at h <;> cases h

/-- **An update that was read from JSON brings what the JSON conveys.** -/
theorem brings_ofJson {j : Json} (hj : J j) {u : Update} (h : ofJson j = .ok u) :
    u.Brings (Everywhere L N) := by
  refine forall_mem_ofJson (fun operators hoperators op fields hmem e he c _ hc => ?_) h
  subst hoperators
  exact brings_readChange hJ (hJ.fields (hJ.fields hj _ hmem) e he) hc

end Reading

end Update

end DocStore
