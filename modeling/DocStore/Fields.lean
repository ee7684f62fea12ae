/-!
# Ordered fields

`Fields α` is a list of named entries. The first entry of a name is the one that counts, a new
name goes to the end, and a name that is written again keeps its place. Look-up through `get?` is
the view: the lemmas say what `insert` and `erase` do to it.
-/

set_option autoImplicit false

namespace DocStore

/-- Named entries in the order in which their names were first written. -/
abbrev Fields (α : Type) := List (String × α)

namespace Fields

variable {α β : Type}

/-- The entry of a name. -/
def get? : Fields α → String → Option α
  | [], _ => none
  | (k, v) :: rest, name => if k = name then some v else get? rest name

/-- Whether a name has an entry. -/
def contains (m : Fields α) (name : String) : Bool := (get? m name).isSome

/-- Writes the entry of a name: in place if the name is there, else at the end. -/
def insert : Fields α → String → α → Fields α
  | [], name, v => [(name, v)]
  | (k, w) :: rest, name, v =>
    if k = name then (k, v) :: rest else (k, w) :: insert rest name v

/-- Removes the entry of a name; the others keep their order. -/
def erase : Fields α → String → Fields α
  | [], _ => []
  | (k, w) :: rest, name => if k = name then rest else (k, w) :: erase rest name

/-- The names in order. -/
def keys (m : Fields α) : List String := m.map (·.1)

/-- Builds fields from entries: a repeated name keeps its first place and its last value. -/
def ofEntries (entries : List (String × α)) : Fields α :=
  entries.foldl (fun m e => insert m e.1 e.2) []

/-- Rewrites every entry by a function that may fail, in order. -/
def mapEntriesM {ε : Type} (f : String → α → Except ε β) : Fields α → Except ε (Fields β)
  | [] => .ok []
  | (k, v) :: rest => do
    let w ← f k v
    let tail ← mapEntriesM f rest
    return (k, w) :: tail

/-- The entry of a name, with the fact that it is smaller than the fields. -/
def find? [SizeOf α] (m : Fields α) (name : String) : Option { v : α // sizeOf v < sizeOf m } :=
  match m with
  | [] => none
  | (k, v) :: rest =>
    if k = name then some ⟨v, by simp; omega⟩
    else (find? rest name).map fun w => ⟨w.1, by have := w.2; simp; omega⟩

/-! ## What look-up sees -/

theorem find?_eq_get? [SizeOf α] (m : Fields α) (name : String) :
    (find? m name).map (·.1) = get? m name := by
  induction m with
  | nil => rfl
  | cons e rest ih =>
      obtain ⟨k, w⟩ := e
      by_cases h : k = name
      · simp [find?, get?, h]
      · simp [find?, get?, h, ← ih, Function.comp_def]

@[simp] theorem get?_nil (name : String) : get? ([] : Fields α) name = none := rfl

theorem get?_insert_self (m : Fields α) (name : String) (v : α) :
    get? (insert m name v) name = some v := by
  induction m with
  | nil => simp [insert, get?]
  | cons e rest ih =>
      obtain ⟨k, w⟩ := e
      by_cases h : k = name <;> simp [insert, get?, h, ih]

theorem get?_insert_of_ne (m : Fields α) {name other : String} (v : α) (h : other ≠ name) :
    get? (insert m name v) other = get? m other := by
  induction m with
  | nil => simp [insert, get?, Ne.symm h]
  | cons e rest ih =>
      obtain ⟨k, w⟩ := e
      by_cases hk : k = name
      · subst hk
        simp [insert, get?, Ne.symm h]
      · simp [insert, get?, hk, ih]

theorem get?_erase_of_ne (m : Fields α) {name other : String} (h : other ≠ name) :
    get? (erase m name) other = get? m other := by
  induction m with
  | nil => rfl
  | cons e rest ih =>
      obtain ⟨k, w⟩ := e
      by_cases hk : k = name
      · subst hk
        simp [erase, get?, Ne.symm h]
      · simp [erase, get?, hk, ih]

theorem mem_of_get? {m : Fields α} {name : String} {v : α} (h : get? m name = some v) :
    (name, v) ∈ m := by
  induction m with
  | nil => cases h
  | cons e rest ih =>
      obtain ⟨k, w⟩ := e
      by_cases hk : k = name
      · subst hk
        simp only [get?, if_true, Option.some.injEq] at h
        subst h
        exact List.mem_cons_self
      · simp only [get?, hk, if_false] at h
        exact List.mem_cons_of_mem _ (ih h)

theorem contains_iff_mem {m : Fields α} {name : String} :
    contains m name = true ↔ ∃ v, (name, v) ∈ m := by
  induction m with
  | nil => simp [contains]
  | cons e rest ih =>
      obtain ⟨k, w⟩ := e
      by_cases hk : k = name
      · subst hk
        simp [contains, get?]
      · have hrest : contains ((k, w) :: rest) name = contains rest name := by
          simp [contains, get?, hk]
        rw [hrest, ih]
        simp [Ne.symm hk]

/-- Where no name occurs twice, every entry counts. -/
theorem get?_of_mem {m : Fields α} (hkeys : (keys m).Nodup) {name : String} {v : α}
    (h : (name, v) ∈ m) : get? m name = some v := by
  induction m with
  | nil => cases h
  | cons e rest ih =>
      obtain ⟨k, w⟩ := e
      obtain ⟨hk, hkeys⟩ := List.nodup_cons.1 hkeys
      rcases List.mem_cons.1 h with heq | hmem
      · cases heq
        simp [get?]
      · have hne : k ≠ name := by
          rintro rfl
          exact hk (List.mem_map.2 ⟨_, hmem, rfl⟩)
        simp only [get?, hne, if_false]
        exact ih hkeys hmem

theorem mem_keys_insert {m : Fields α} {name other : String} {v : α} :
    other ∈ keys (insert m name v) ↔ other ∈ keys m ∨ other = name := by
  induction m with
  | nil => simp [insert, keys]
  | cons e rest ih =>
      obtain ⟨k, w⟩ := e
      by_cases hk : k = name
      · subst hk
        simp only [insert, if_true, keys, List.map_cons, List.mem_cons]
        grind
      · simp only [insert, hk, if_false, keys, List.map_cons, List.mem_cons] at ih ⊢
        rw [ih, or_assoc]

theorem nodup_keys_insert {m : Fields α} (h : (keys m).Nodup) (name : String) (v : α) :
    (keys (insert m name v)).Nodup := by
  induction m with
  | nil => simp [insert, keys]
  | cons e rest ih =>
      obtain ⟨k, w⟩ := e
      obtain ⟨hk, hrest⟩ := List.nodup_cons.1 h
      by_cases hname : k = name
      · subst hname
        simpa [insert, keys] using h
      · have hmem : k ∉ keys (insert rest name v) := by
          rw [mem_keys_insert]
          rintro (hmem | heq)
          · exact hk hmem
          · exact hname heq
        simp only [insert, hname, if_false]
        exact List.nodup_cons.2 ⟨hmem, ih hrest⟩

theorem nodup_keys_ofEntries (entries : List (String × α)) : (keys (ofEntries entries)).Nodup := by
  have hfold : ∀ m : Fields α, (keys m).Nodup →
      (keys (entries.foldl (fun m e => insert m e.1 e.2) m)).Nodup := by
    induction entries with
    | nil => exact fun _ h => h
    | cons e rest ih => exact fun m h => ih _ (nodup_keys_insert h e.1 e.2)
  exact hfold [] List.nodup_nil

end Fields

end DocStore
