import DocStore.Proofs.Except
import DocStore.Update

/-!
# Reading updates

Every change of an update comes from a path and an operand of its JSON, and the path was checked:
`Update.forall_mem_ofJson`. So no update that was read leads into the id.
-/

set_option autoImplicit false

namespace DocStore.Update

/-- A property of all changes that one operator makes of one operand. -/
def Reads (P : Change → Prop) (op path : String) (raw : Json) : Prop :=
  ∀ c, checkPath op path = .ok () → readChange op path raw = .ok c → P c

section Each

variable {P : Change → Prop} {before changes : List Change}

theorem forall_mem_readFields {op : String} {fields : List (String × Json)}
    (hread : ∀ e ∈ fields, Reads P op e.1 e.2) (hbefore : ∀ c ∈ before, P c)
    (h : readFields op before fields = .ok changes) : ∀ c ∈ changes, P c := by
  -- The changes read so far are carried along, to be searched for conflicts.
  induction fields generalizing before with
  | nil =>
      cases h
      exact hbefore
  | cons e rest ih =>
      obtain ⟨path, raw⟩ := e
      obtain ⟨hfirst, hrest⟩ := List.forall_mem_cons.1 hread
      obtain ⟨_, hpath, h⟩ := bind_eq_ok.1 h
      obtain ⟨c, hc, h⟩ := bind_eq_ok.1 h
      split at h
      · cases h
      · refine ih hrest (List.forall_mem_append.2 ⟨hbefore, ?_⟩) h
        exact List.forall_mem_singleton.2 (hfirst c hpath hc)

theorem forall_mem_readOperators {operators : List (String × Json)}
    (hread : ∀ op fields, (op, .object fields) ∈ operators → ∀ e ∈ fields, Reads P op e.1 e.2)
    (hbefore : ∀ c ∈ before, P c) (h : readOperators before operators = .ok changes) :
    ∀ c ∈ changes, P c := by
  induction operators generalizing before with
  | nil =>
      cases h
      exact hbefore
  | cons e rest ih =>
      obtain ⟨op, operand⟩ := e
      unfold readOperators at h
      split at h
      · rename_i fields
        obtain ⟨now, hnow, h⟩ := bind_eq_ok.1 h
        refine ih (fun op fields hmem => hread op fields (List.mem_cons_of_mem _ hmem)) ?_ h
        exact forall_mem_readFields (hread op fields List.mem_cons_self) hbefore hnow
      · cases h

end Each

/-- **What operators make of their operands holds of all changes** of an update that was read. -/
theorem forall_mem_ofJson {P : Change → Prop} {j : Json} {u : Update}
    (hread : ∀ operators, j = .object operators → ∀ op fields, (op, .object fields) ∈ operators →
      ∀ e ∈ fields, Reads P op e.1 e.2)
    (h : ofJson j = .ok u) : ∀ c ∈ u.changes, P c := by
  unfold ofJson at h
  split at h
  · cases h
  · rename_i operators _
    obtain ⟨changes, hchanges, rfl⟩ := map_eq_ok.1 h
    exact forall_mem_readOperators (hread operators rfl) (List.forall_mem_nil _) hchanges
  · cases h

/-- A change has the path that it was read with. -/
theorem path_readChange {op path : String} {raw : Json} {c : Change}
    (h : readChange op path raw = .ok c) : c.path = path := by
  unfold readChange at h
  split at h
  · cases h
    rfl
  · dsimp only at h
    split at h <;> cases h
    rfl
  · cases h
    rfl
  · cases h
    rfl
  · split at h <;> cases h

/-- An update that does not lead into the id of a document. -/
def SparesId (u : Update) : Prop := ∀ c ∈ u.changes, Segments.top c.path ≠ idField

/-- **An update that was read spares the id.** -/
theorem sparesId_ofJson {j : Json} {u : Update} (h : ofJson j = .ok u) : u.SparesId := by
  refine forall_mem_ofJson (fun operators _ op fields _ e _ c hpath hc => ?_) h
  rw [path_readChange hc]
  intro htop
  unfold checkPath at hpath
  split at hpath
  · cases hpath
  · simp [htop] at hpath

end DocStore.Update
