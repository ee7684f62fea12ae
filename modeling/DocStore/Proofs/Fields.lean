import Mathlib.Data.List.Forall2
import Mathlib.Data.List.Nodup
import DocStore.Fields

/-!
# Fields of which none is lost

Building fields from entries merges entries of one name. If there are as many fields as entries,
they are the entries. Taking away the first entry of a name leaves the others. Where no name is
repeated, look-up does not see the order of the entries.
-/

set_option autoImplicit false

namespace DocStore.Fields

variable {α β : Type}

theorem mem_keys {m : Fields α} {e : String × α} (h : e ∈ m) : e.1 ∈ keys m :=
  List.mem_map_of_mem h

theorem length_eq_of_keys {m : Fields α} {m' : Fields β} (h : keys m = keys m') :
    m.length = m'.length := by
  simpa [keys] using congrArg List.length h

/-! ## Building -/

/-- An entry is added or takes the place of another. -/
theorem insert_cases (m : Fields α) (name : String) (v : α) :
    insert m name v = m ++ [(name, v)] ∨ (insert m name v).length = m.length := by
  induction m with
  | nil => exact .inl rfl
  | cons e rest ih =>
      obtain ⟨k, w⟩ := e
      by_cases hk : k = name
      · simp [insert, hk]
      · simp only [insert, hk, if_false, List.cons_append, List.cons.injEq, true_and,
          List.length_cons, Nat.add_right_cancel_iff]
        exact ih

theorem mem_of_mem_insert {m : Fields α} {name : String} {v : α} {e : String × α}
    (h : e ∈ insert m name v) : e = (name, v) ∨ e ∈ m := by
  induction m with
  | nil => exact .inl (List.mem_singleton.1 h)
  | cons a rest ih =>
      obtain ⟨k, w⟩ := a
      by_cases hk : k = name
      · rw [insert, if_pos hk, hk] at h
        exact (List.mem_cons.1 h).imp_right (List.mem_cons_of_mem _)
      · rw [insert, if_neg hk] at h
        rcases List.mem_cons.1 h with rfl | h
        · exact .inr List.mem_cons_self
        · exact (ih h).imp_right (List.mem_cons_of_mem _)

/-- Entries of which none is merged with another are the fields that they build. -/
theorem ofEntries_eq_self {entries : List (String × α)}
    (h : (ofEntries entries).length = entries.length) : ofEntries entries = entries := by
  have hfold : ∀ m : Fields α,
      (entries.foldl (fun m e => insert m e.1 e.2) m).length ≤ m.length + entries.length ∧
        ((entries.foldl (fun m e => insert m e.1 e.2) m).length = m.length + entries.length →
          entries.foldl (fun m e => insert m e.1 e.2) m = m ++ entries) := by
    clear h
    induction entries with
    | nil => simp
    | cons e rest ih =>
        intro m
        obtain ⟨hle, heq⟩ := ih (insert m e.1 e.2)
        rw [List.foldl_cons, List.length_cons]
        rcases insert_cases m e.1 e.2 with hinsert | hlength
        · rw [hinsert, List.length_append, List.length_singleton] at hle heq
          rw [hinsert]
          refine ⟨by omega, fun h => ?_⟩
          rw [heq (by omega), List.append_assoc]
          rfl
        · exact ⟨by omega, fun h => absurd h (by omega)⟩
  exact (hfold []).2 (h.trans (Nat.zero_add _).symm)

theorem insert_of_not_mem {m : Fields α} {name : String} (h : name ∉ keys m) (v : α) :
    insert m name v = m ++ [(name, v)] := by
  induction m with
  | nil => rfl
  | cons e rest ih =>
      obtain ⟨k, w⟩ := e
      have hk : k ≠ name := by
        rintro rfl
        exact h List.mem_cons_self
      rw [insert, if_neg hk, ih fun hmem => h (List.mem_cons_of_mem _ hmem), List.cons_append]

/-- A name that is written again keeps its place. -/
theorem keys_insert_of_mem {m : Fields α} {name : String} (h : name ∈ keys m) (v : α) :
    keys (insert m name v) = keys m := by
  induction m with
  | nil => cases h
  | cons e rest ih =>
      obtain ⟨k, w⟩ := e
      by_cases hk : k = name
      · rw [insert, if_pos hk]
        rfl
      · have hrest : name ∈ keys rest := (List.mem_cons.1 h).resolve_left (Ne.symm hk)
        rw [insert, if_neg hk]
        exact congrArg (k :: ·) (ih hrest)

/-- Writing what is there changes nothing. -/
theorem insert_of_get? {m : Fields α} {name : String} {v : α} (h : get? m name = some v) :
    insert m name v = m := by
  induction m with
  | nil => cases h
  | cons e rest ih =>
      obtain ⟨k, w⟩ := e
      by_cases hk : k = name
      · simp only [get?, hk, if_true, Option.some.injEq] at h
        rw [insert, if_pos hk, h]
      · simp only [get?, hk, if_false] at h
        rw [insert, if_neg hk, ih h]

/-- A name that is written twice holds what was written last. -/
theorem insert_insert (m : Fields α) (name : String) (v w : α) :
    insert (insert m name v) name w = insert m name w := by
  induction m with
  | nil => simp [insert]
  | cons e rest ih =>
      obtain ⟨k, u⟩ := e
      by_cases hk : k = name
      · simp [insert, hk]
      · simp [insert, hk, ih]

/-- Entries with different names are the fields that they build. -/
theorem ofEntries_of_nodup {entries : List (String × α)} (h : (keys entries).Nodup) :
    ofEntries entries = entries := by
  have hfold : ∀ m : Fields α, (keys (m ++ entries)).Nodup →
      entries.foldl (fun m e => insert m e.1 e.2) m = m ++ entries := by
    clear h
    induction entries with
    | nil => simp
    | cons e rest ih =>
        intro m hm
        have hnew : e.1 ∉ keys m := by
          rw [keys, List.map_append, List.nodup_append] at hm
          exact fun hmem => hm.2.2 e.1 hmem e.1 List.mem_cons_self rfl
        have hall : m ++ [(e.1, e.2)] ++ rest = m ++ e :: rest := List.append_assoc _ _ _
        rw [← hall] at hm ⊢
        rw [List.foldl_cons, insert_of_not_mem hnew]
        exact ih _ hm
  exact hfold [] h

/-! ## Looking up -/

/-- The entries of a name are all that look-up of it sees. -/
theorem get?_filter (m : Fields α) (name : String) :
    get? (m.filter (·.1 = name)) name = get? m name := by
  induction m with
  | nil => rfl
  | cons e rest ih =>
      obtain ⟨k, w⟩ := e
      by_cases hk : k = name
      · simp [get?, hk]
      · simp [get?, hk, ih]

/-- Where no name is repeated, the entries are what look-up finds under the names. -/
theorem map_eq_filterMap_get? {m : Fields α} (hkeys : (keys m).Nodup) (f : String × α → β) :
    m.map f = (keys m).filterMap fun name => (get? m name).map fun v => f (name, v) := by
  rw [keys, List.filterMap_map, ← List.filterMap_eq_map]
  refine List.filterMap_congr fun e he => ?_
  rw [Function.comp_apply, Function.comp_apply, get?_of_mem hkeys he]
  rfl

/-- Fields with the same names in the same order, and the same values under them, are the same. -/
theorem eq_of_keys {m m' : Fields α} (hkeys : (keys m).Nodup) (h : keys m' = keys m)
    (hget : ∀ name ∈ keys m, get? m' name = get? m name) : m' = m := by
  calc m' = m'.map id := (List.map_id m').symm
    _ = (keys m').filterMap fun name => (get? m' name).map fun v => (name, v) :=
        map_eq_filterMap_get? (h ▸ hkeys) id
    _ = (keys m).filterMap fun name => (get? m name).map fun v => (name, v) := by
        rw [h]
        exact List.filterMap_congr fun name hname => by rw [hget name hname]
    _ = m.map id := (map_eq_filterMap_get? hkeys id).symm
    _ = m := List.map_id m

/-! ## Taking away -/

theorem keys_erase (m : Fields α) (name : String) : keys (erase m name) = (keys m).erase name := by
  induction m with
  | nil => rfl
  | cons e rest ih =>
      obtain ⟨k, w⟩ := e
      by_cases hk : k = name
      · subst hk
        rw [erase, if_pos rfl]
        exact (List.erase_cons_head k (keys rest)).symm
      · rw [erase, if_neg hk]
        change k :: keys (erase rest name) = (k :: keys rest).erase name
        rw [ih, List.erase_cons_tail (by simpa using hk)]

/-- A new field that is removed again leaves no trace. -/
theorem erase_insert_of_get?_none {m : Fields α} {name : String} (h : get? m name = none) (v : α) :
    erase (insert m name v) name = m := by
  induction m with
  | nil => simp [insert, erase]
  | cons e rest ih =>
      obtain ⟨k, w⟩ := e
      by_cases hk : k = name
      · simp [get?, hk] at h
      · simp only [get?, hk, if_false] at h
        simp only [insert, erase, hk, if_false, ih h]

theorem erase_of_get?_none {m : Fields α} {name : String} (h : get? m name = none) :
    erase m name = m := by
  induction m with
  | nil => rfl
  | cons e rest ih =>
      obtain ⟨k, w⟩ := e
      by_cases hk : k = name
      · simp [get?, hk] at h
      · simp only [get?, hk, if_false] at h
        simp only [erase, hk, if_false, ih h]

theorem mem_of_mem_erase {m : Fields α} {name : String} {e : String × α} (h : e ∈ erase m name) :
    e ∈ m := by
  induction m with
  | nil => cases h
  | cons a rest ih =>
      obtain ⟨k, w⟩ := a
      by_cases hk : k = name
      · rw [erase, if_pos hk] at h
        exact List.mem_cons_of_mem _ h
      · rw [erase, if_neg hk] at h
        rcases List.mem_cons.1 h with rfl | h
        · exact List.mem_cons_self
        · exact List.mem_cons_of_mem _ (ih h)

theorem mem_erase {m : Fields α} (hkeys : (keys m).Nodup) {name : String} {e : String × α} :
    e ∈ erase m name ↔ e ∈ m ∧ e.1 ≠ name := by
  induction m with
  | nil => simp [erase]
  | cons a rest ih =>
      obtain ⟨k, w⟩ := a
      obtain ⟨hk, hkeys⟩ := List.nodup_cons.1 hkeys
      by_cases hname : k = name
      · subst hname
        have hne : ∀ e ∈ rest, e.1 ≠ k := by
          rintro e he rfl
          exact hk (mem_keys (e := e) he)
        simp only [erase, if_true, List.mem_cons]
        constructor
        · exact fun he => ⟨.inr he, hne e he⟩
        · rintro ⟨rfl | he, hother⟩
          · exact absurd rfl hother
          · exact he
      · simp only [erase, hname, if_false, List.mem_cons, ih hkeys]
        constructor
        · rintro (rfl | ⟨he, hother⟩)
          · exact ⟨.inl rfl, hname⟩
          · exact ⟨.inr he, hother⟩
        · rintro ⟨rfl | he, hother⟩
          · exact .inl rfl
          · exact .inr ⟨he, hother⟩

theorem get?_erase_self {m : Fields α} (hkeys : (keys m).Nodup) (name : String) :
    get? (erase m name) name = none := by
  cases h : get? (erase m name) name with
  | none => rfl
  | some v => exact absurd rfl ((mem_erase hkeys).1 (mem_of_get? h)).2

theorem nodup_keys_erase {m : Fields α} (hkeys : (keys m).Nodup) (name : String) :
    (keys (erase m name)).Nodup := by
  induction m with
  | nil => exact hkeys
  | cons e rest ih =>
      obtain ⟨k, w⟩ := e
      obtain ⟨hk, hrest⟩ := List.nodup_cons.1 hkeys
      by_cases hname : k = name
      · rw [erase, if_pos hname]
        exact hrest
      · rw [erase, if_neg hname]
        refine List.nodup_cons.2 ⟨fun hmem => ?_, ih hrest⟩
        obtain ⟨e, he, heq⟩ := List.mem_map.1 hmem
        exact hk (List.mem_map.2 ⟨e, ((mem_erase hrest).1 he).1, heq⟩)

theorem length_erase {m : Fields α} {name : String} {v : α} (h : get? m name = some v) :
    (erase m name).length + 1 = m.length := by
  induction m with
  | nil => cases h
  | cons e rest ih =>
      obtain ⟨k, w⟩ := e
      by_cases hk : k = name
      · simp [erase, hk]
      · simp only [get?, hk, if_false] at h
        simp only [erase, hk, if_false, List.length_cons, ih h]

/-! ## Writing entries one after the other -/

theorem get?_foldl_insert {entries : List (String × α)} {name : String}
    (h : name ∉ keys entries) (m : Fields α) :
    get? (entries.foldl (fun m e => insert m e.1 e.2) m) name = get? m name := by
  induction entries generalizing m with
  | nil => rfl
  | cons e rest ih =>
      obtain ⟨hne, hrest⟩ := not_or.1 (mt List.mem_cons.2 h)
      rw [List.foldl_cons, ih hrest, get?_insert_of_ne m e.2 hne]

/-- A name that is written is found, with one of the values that are written under it. -/
theorem exists_get?_foldl_insert {entries : List (String × α)} {name : String}
    (h : name ∈ keys entries) (m : Fields α) : ∃ v, (name, v) ∈ entries ∧
      get? (entries.foldl (fun m e => insert m e.1 e.2) m) name = some v := by
  induction entries generalizing m with
  | nil => cases h
  | cons e rest ih =>
      by_cases hrest : name ∈ keys rest
      · obtain ⟨v, hv, hget⟩ := ih hrest (insert m e.1 e.2)
        exact ⟨v, List.mem_cons_of_mem _ hv, hget⟩
      · obtain rfl := (List.mem_cons.1 h).resolve_right hrest
        refine ⟨e.2, List.mem_cons_self, ?_⟩
        rw [List.foldl_cons, get?_foldl_insert hrest, get?_insert_self]

theorem get?_foldl_insert_of_mem {entries : List (String × α)} {name : String} {v : α}
    (hkeys : (keys entries).Nodup) (h : (name, v) ∈ entries) (m : Fields α) :
    get? (entries.foldl (fun m e => insert m e.1 e.2) m) name = some v := by
  obtain ⟨w, hw, hget⟩ := exists_get?_foldl_insert (List.mem_map_of_mem h) m
  rw [hget, ← get?_of_mem hkeys hw, get?_of_mem hkeys h]

/-! ## Order -/

/-- Where no name is repeated, the order of the entries does not count. -/
theorem get?_perm {m m' : Fields α} (hkeys : (keys m).Nodup) (h : m.Perm m') (name : String) :
    get? m' name = get? m name := by
  have hmap : (keys m).Perm (keys m') := h.map _
  cases hget : get? m name with
  | some v => exact get?_of_mem (hmap.nodup_iff.1 hkeys) (h.mem_iff.1 (mem_of_get? hget))
  | none =>
      refine Option.eq_none_iff_forall_ne_some.2 fun v hv => ?_
      rw [get?_of_mem hkeys (h.mem_iff.2 (mem_of_get? hv))] at hget
      cases hget

/-- Fields with the same values are the same up to their order. -/
theorem perm_of_get? {m m' : Fields α} (hkeys : (keys m).Nodup)
    (hkeys' : (keys m').Nodup) (h : ∀ name, get? m name = get? m' name) : m.Perm m' := by
  refine (List.perm_ext_iff_of_nodup hkeys.of_map hkeys'.of_map).2 fun e => ?_
  constructor
  · intro he
    exact mem_of_get? ((h e.1).symm.trans (get?_of_mem hkeys he))
  · intro he
    exact mem_of_get? ((h e.1).trans (get?_of_mem hkeys' he))

theorem contains_iff_mem_keys {m : Fields α} {name : String} :
    contains m name = true ↔ name ∈ keys m := by
  rw [contains_iff_mem, keys, List.mem_map]
  constructor
  · rintro ⟨v, h⟩
    exact ⟨_, h, rfl⟩
  · rintro ⟨e, h, rfl⟩
    exact ⟨e.2, h⟩

theorem get?_eq_none_iff {m : Fields α} {name : String} : get? m name = none ↔ name ∉ keys m := by
  rw [← contains_iff_mem_keys, contains, Option.not_isSome_iff_eq_none]

/-- A new name goes to the end. -/
theorem keys_insert (m : Fields α) (name : String) (v : α) :
    keys (insert m name v) = if name ∈ keys m then keys m else keys m ++ [name] := by
  split
  · rename_i h
    exact keys_insert_of_mem h v
  · rename_i h
    rw [insert_of_not_mem h, keys, List.map_append]
    rfl

/-- Which names there are is a matter of the names, in whatever order. -/
theorem contains_eq_of_keys {m : Fields α} {m' : Fields β} (h : (keys m).Perm (keys m'))
    (name : String) : contains m name = contains m' name := by
  rw [Bool.eq_iff_iff, contains_iff_mem_keys, contains_iff_mem_keys, h.mem_iff]

/-! ## Entries with related values -/

section Related

variable {R : String → α → β → Prop} {m : Fields α} {m' m'' : Fields β}

/-- The same names in the same order, with values that are related under their name. -/
def Related (R : String → α → β → Prop) (m : Fields α) (m' : Fields β) : Prop :=
  List.Forall₂ (fun e f => e.1 = f.1 ∧ R e.1 e.2 f.2) m m'

theorem Related.cons (name : String) {v : α} {w : β} (head : R name v w) (tail : Related R m m') :
    Related R ((name, v) :: m) ((name, w) :: m') :=
  List.Forall₂.cons ⟨rfl, head⟩ tail

theorem related_cons {e : String × α} {f : String × β} :
    Related R (e :: m) (f :: m') ↔ (e.1 = f.1 ∧ R e.1 e.2 f.2) ∧ Related R m m' :=
  List.forall₂_cons

theorem Related.mono {S : String → α → β → Prop} (h : Related R m m')
    (hsub : ∀ name v w, R name v w → S name v w) : Related S m m' :=
  List.Forall₂.imp (fun e f hef => ⟨hef.1, hsub e.1 e.2 f.2 hef.2⟩) h

theorem Related.keys_eq (h : Related R m m') : keys m = keys m' := by
  induction h with
  | nil => rfl
  | cons head _ ih => exact congr (congrArg List.cons head.1) ih

theorem Related.keys_perm (h : Related R m m') (hperm : m'.Perm m'') :
    (keys m).Perm (keys m'') := h.keys_eq ▸ hperm.map _

theorem Related.get? (h : Related R m m') (name : String) :
    Option.Rel (R name) (get? m name) (get? m' name) := by
  induction h with
  | nil => exact .none
  | @cons e f _ _ head _ ih =>
      obtain ⟨k, v⟩ := e
      obtain ⟨l, w⟩ := f
      obtain ⟨rfl, hvw⟩ : k = l ∧ R k v w := head
      by_cases hk : k = name
      · subst hk
        simpa [Fields.get?] using hvw
      · simpa [Fields.get?, hk] using ih

/-- Where no name is repeated, the values of a name are related wherever they stand. -/
theorem Related.get?_of_perm (h : Related R m m') (hkeys : (keys m).Nodup) (hperm : m'.Perm m'')
    (name : String) : Option.Rel (R name) (Fields.get? m name) (Fields.get? m'' name) := by
  rw [Fields.get?_perm (h.keys_eq ▸ hkeys) hperm]
  exact h.get? name

end Related

end DocStore.Fields
