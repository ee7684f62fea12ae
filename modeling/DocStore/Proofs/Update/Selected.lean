import DocStore.Proofs.Update.Frame
import DocStore.Proofs.Update.Reading

/-!
# Updates of selected fields

A change depends on the field that its path starts with, and on no other. So an update does the same
to a selection of fields as to all of them, if it names none but the selected ones:
`Update.apply_select`. Fields that it does not name stay as they are, in their order:
`Update.untouched_apply`.
-/

set_option autoImplicit false

namespace DocStore

/-! ## Selecting fields -/

namespace Fields

variable {α : Type} {p : String → Bool} {m m' : Fields α} {name : String}

/-- The fields whose names have a property, in their order. -/
def select (p : String → Bool) (m : Fields α) : Fields α := m.filter fun e => p e.1

theorem get?_select (m : Fields α) (h : p name = true) :
    get? (select p m) name = get? m name := by
  induction m with
  | nil => rfl
  | cons e rest ih =>
      obtain ⟨k, w⟩ := e
      by_cases hk : k = name
      · simp [select, get?, hk, h]
      · cases hp : p k <;> simpa [select, get?, hk, hp] using ih

theorem select_insert (m : Fields α) (h : p name = true) (v : α) :
    select p (insert m name v) = insert (select p m) name v := by
  induction m with
  | nil => simp [select, insert, h]
  | cons e rest ih =>
      obtain ⟨k, w⟩ := e
      by_cases hk : k = name
      · simp [select, insert, hk, h]
      · cases hp : p k <;> simpa [select, insert, hk, hp] using ih

theorem select_insert_of_not (m : Fields α) (h : p name = false) (v : α) :
    select p (insert m name v) = select p m := by
  induction m with
  | nil => simp [select, insert, h]
  | cons e rest ih =>
      obtain ⟨k, w⟩ := e
      by_cases hk : k = name
      · simp [select, insert, hk, h]
      · cases hp : p k <;> simpa [select, insert, hk, hp] using ih

theorem select_erase (m : Fields α) (h : p name = true) :
    select p (erase m name) = erase (select p m) name := by
  induction m with
  | nil => rfl
  | cons e rest ih =>
      obtain ⟨k, w⟩ := e
      by_cases hk : k = name
      · simp [select, erase, hk, h]
      · cases hp : p k <;> simpa [select, erase, hk, hp] using ih

theorem select_erase_of_not (m : Fields α) (h : p name = false) :
    select p (erase m name) = select p m := by
  induction m with
  | nil => rfl
  | cons e rest ih =>
      obtain ⟨k, w⟩ := e
      by_cases hk : k = name
      · simp [select, erase, hk, h]
      · cases hp : p k <;> simpa [select, erase, hk, hp] using ih

/-- **Fields that are not edited** stay as they are, in their order. -/
theorem Edits.select_eq {names : List String} (h : Edits names m m')
    (hp : ∀ name ∈ names, p name = false) : select p m' = select p m := by
  induction h with
  | refl => rfl
  | @tail m₁ m₂ _ hedit ih =>
      rw [← ih]
      cases hedit with
      | write hname v => exact select_insert_of_not m₁ (hp _ hname) v
      | remove hname => exact select_erase_of_not m₁ (hp _ hname)

/-- Fields that agree in a selection and in the rest are the same up to their order. -/
theorem perm_of_select (h : select p m = select p m')
    (hrest : select (fun name => !p name) m = select (fun name => !p name) m') : m.Perm m' := by
  calc
    m.Perm (select p m ++ select (fun name => !p name) m) := (List.filter_append_perm _ m).symm
    _ = select p m' ++ select (fun name => !p name) m' := by rw [h, hrest]
    List.Perm _ m' := List.filter_append_perm _ m'

end Fields

/-! ## What a path depends on -/

namespace Fields

open Value (writeChild descend?)

variable {p : String → Bool} {m m' : Fields Value} {path segment : String} {rest : List String}

theorem getPath?_congr (h : get? m (Segments.top path) = get? m' (Segments.top path)) :
    getPath? m path = getPath? m' path := by
  obtain ⟨rest, hrest⟩ := ofPath_eq_top_cons path
  rw [getPath?, getPath?, Value.getPath?, Value.getPath?, hrest]
  exact congrArg (Option.bind · (descend? rest)) h

theorem writeChild_congr (h : get? m segment = get? m' segment) (path : String) (v : Value)
    (rest : List String) :
    writeChild path v segment rest (.object m) = writeChild path v segment rest (.object m') := by
  rw [writeChild, writeChild, Value.passage, Value.passage, h]

/-- A write at a path puts what it makes of the first field in the place of that field. -/
theorem setPath_eq (m : Fields Value) (v : Value) (hpath : Segments.ofPath path = segment :: rest) :
    setPath m path v = (insert m segment (writeChild path v segment rest (.object m)).1,
      (writeChild path v segment rest (.object m)).2) := by
  rw [setPath, hpath]
  cases rest with
  | nil => rfl
  | cons next rest => rfl

/-- A write depends on the field that its path starts with, and makes the same of it. -/
theorem exists_setPath?_congr (h : get? m (Segments.top path) = get? m' (Segments.top path))
    {v : Value} {w : Fields Value} (hset : setPath? m path v = .ok w) :
    ∃ w', setPath? m' path v = .ok w' ∧
      get? w' (Segments.top path) = get? w (Segments.top path) := by
  obtain ⟨rest, hrest⟩ := ofPath_eq_top_cons path
  rw [setPath?, setPath_eq _ v hrest, writeChild_congr h] at hset
  rw [setPath?, setPath_eq _ v hrest]
  cases he : (writeChild path v (Segments.top path) rest (.object m')).2 with
  | some e =>
      rw [he] at hset
      cases hset
  | none =>
      rw [he] at hset
      cases hset
      refine ⟨_, rfl, ?_⟩
      rw [get?_insert_self, get?_insert_self]

/-! ## Paths into selected fields -/

theorem getPath?_select (m : Fields Value) (h : p (Segments.top path) = true) :
    getPath? (select p m) path = getPath? m path :=
  getPath?_congr (get?_select m h)

theorem setPath?_select (m : Fields Value) (h : p (Segments.top path) = true) (v : Value) :
    setPath? (select p m) path v = (setPath? m path v).map (select p) := by
  obtain ⟨rest, hrest⟩ := ofPath_eq_top_cons path
  rw [setPath?, setPath?, setPath_eq _ v hrest, setPath_eq _ v hrest,
    writeChild_congr (get?_select m h), ← select_insert m h]
  cases (writeChild path v (Segments.top path) rest (.object m)).2 with
  | none => rfl
  | some e => rfl

theorem erasePath_select (m : Fields Value) (h : p (Segments.top path) = true) :
    erasePath (select p m) path = Prod.map (select p) id (erasePath m path) := by
  obtain ⟨rest, hrest⟩ := ofPath_eq_top_cons path
  rw [erasePath, erasePath, hrest]
  cases rest with
  | nil =>
      rw [Value.remove?, Value.remove?, get?_select m h]
      cases get? m (Segments.top path) with
      | none => rfl
      | some old => exact congrArg (·, some old) (select_erase m h).symm
  | cons next rest =>
      rw [Value.remove?, Value.remove?, get?_select m h]
      · cases get? m (Segments.top path) with
        | none => rfl
        | some child =>
            cases hremove : Value.remove? (next :: rest) child with
            | none => simp [hremove]
            | some result => simp [hremove, select_insert m h]
      · exact List.cons_ne_nil _ _
      · exact List.cons_ne_nil _ _

end Fields

/-! ## Changes -/

namespace Change

open Fields (select)

variable {p : String → Bool}

theorem assign_select (m : Fields Value) {path : String} (h : p (Segments.top path) = true)
    (v : Value) : assign (select p m) path v = (assign m path v).map (Prod.map (select p) id) := by
  rw [assign_eq, assign_eq, Fields.getPath?_select m h, Fields.setPath?_select m h]
  split
  · rfl
  · cases Fields.setPath? m path v with
    | error e => rfl
    | ok m' => rfl

theorem apply_push_select (m : Fields Value) {path : String}
    (h : p (Segments.top path) = true) (items : List Value) :
    (push path items).apply (select p m) =
      ((push path items).apply m).map (Prod.map (select p) id) := by
  have hget := Fields.getPath?_select m h
  -- What is pushed to is told by what the path finds, which is the same.
  cases hpath : Fields.getPath? m path with
  | none =>
      rw [apply_push_of_none (hget.trans hpath), apply_push_of_none hpath,
        Fields.setPath?_select m h]
      cases Fields.setPath? m path (.array items) with
      | error e => rfl
      | ok m' => rfl
  | some v =>
      cases v with
      | array existing =>
          rw [apply_push_of_array (hget.trans hpath), apply_push_of_array hpath,
            Fields.setPath?_select m h]
          cases Fields.setPath? m path (.array (existing ++ items)) with
          | error e => rfl
          | ok m' => rfl
      | _ =>
          rw [apply_push_of_other (hget.trans hpath) rfl, apply_push_of_other hpath rfl]
          rfl

/-- **A change of a selected field** does to the selection what it does to all fields. -/
theorem apply_select (m : Fields Value) {c : Change} (h : p (Segments.top c.path) = true) :
    c.apply (select p m) = (c.apply m).map (Prod.map (select p) id) := by
  cases c with
  | set path v => exact assign_select m h v
  | increment path delta =>
      have htop : p (Segments.top path) = true := h
      rw [apply_increment, apply_increment, Fields.getPath?_select m htop]
      cases (Fields.getPath? m path).elim (.ok delta) fun current => sum path current delta with
      | error e => rfl
      | ok next => exact assign_select m htop next
  | unset path =>
      have htop : p (Segments.top path) = true := h
      rw [apply_unset, apply_unset, Fields.erasePath_select m htop]
      rfl
  | push path items => exact apply_push_select m h items

end Change

/-! ## Updates -/

namespace Update

open Fields (select)

variable {p : String → Bool} {m m' : Fields Value} {u : Update} {effect : UpdateEffect}

/-- An update that names fields with a property only. -/
def Names (p : String → Bool) (u : Update) : Prop :=
  ∀ c ∈ u.changes, p (Segments.top c.path) = true

theorem applyChanges_select (m : Fields Value) {changes : List Change}
    (h : ∀ c ∈ changes, p (Segments.top c.path) = true) :
    applyChanges (select p m) changes =
      (applyChanges m changes).map (Prod.map (select p) id) := by
  induction changes generalizing m with
  | nil => rfl
  | cons c rest ih =>
      obtain ⟨hc, hrest⟩ := List.forall_mem_cons.1 h
      rw [applyChanges, applyChanges, Change.apply_select m hc]
      cases c.apply m with
      | error e => rfl
      | ok result =>
          obtain ⟨m₁, now⟩ := result
          show (applyChanges (select p m₁) rest >>= _) = _
          rw [ih m₁ hrest]
          show _ = Except.map _ (applyChanges m₁ rest >>= _)
          cases applyChanges m₁ rest with
          | error e => rfl
          | ok later => rfl

/-- **An update of selected fields** does to the selection what it does to all fields. -/
theorem apply_select (m : Fields Value) (h : u.Names p) :
    u.apply (select p m) = (u.apply m).map (Prod.map (select p) id) := by
  rw [apply, apply, applyChanges_select m h]
  cases applyChanges m u.changes with
  | error e => rfl
  | ok result => rfl

/-- An update leaves fields alone that it does not name. -/
theorem select_apply (hu : u.Names p) (h : u.apply m = .ok (m', effect)) :
    select (fun name => !p name) m' = select (fun name => !p name) m := by
  refine (edits_apply h).select_eq fun name hname => ?_
  rw [touched_of_apply h] at hname
  obtain ⟨c, hc, rfl⟩ := mem_touched.1 hname
  rw [hu c hc]
  rfl

/-- **What an update leaves alone.** It never names the id. Fields that it does not name keep their
values, or are still missing, and they keep their order; if the update reports no change, all fields
are exactly as they were. -/
theorem untouched_apply {j : Json} (hu : ofJson j = .ok u) (h : u.apply m = .ok (m', effect)) :
    idField ∉ effect.touched ∧
      (∀ name, name ∉ effect.touched ∨ name = idField →
        Fields.get? m' name = Fields.get? m name) ∧
      select (fun name => name ∉ effect.touched ∨ name = idField) m' =
        select (fun name => name ∉ effect.touched ∨ name = idField) m ∧
      (effect.modified = false → m' = m) := by
  have hid : idField ∉ effect.touched := by
    rw [touched_of_apply h]
    intro hmem
    obtain ⟨c, hc, htop⟩ := mem_touched.1 hmem
    exact sparesId_ofJson hu c hc htop.symm
  have hother : ∀ name, name ∉ effect.touched ∨ name = idField → name ∉ effect.touched := by
    rintro name (hname | rfl)
    · exact hname
    · exact hid
  refine ⟨hid, fun name hname => get?_apply h (hother name hname), ?_, eq_of_apply h⟩
  refine (edits_apply h).select_eq fun name hname => ?_
  simpa using fun hname' => hother name hname' hname

/-- A field is removed and an array grows; the fields around them stay. -/
theorem untouched_apply_rex :
    let rex : Fields Value := [("_id", .int 1), ("name", .string "Rex"), ("age", .int 3),
      ("tags", .array [.string "tame"]), ("owner", .null)]
    let grown : Fields Value := [("_id", .int 1), ("age", .int 3),
      ("tags", .array [.string "tame", .string "wet"]), ("owner", .null)]
    let wet : Json := .object [("$unset", .object [("name", .string "")]),
      ("$push", .object [("tags", .string "wet")])]
    ∃ u, ofJson wet = .ok u ∧
      u.apply rex = .ok (grown, { modified := true, touched := ["name", "tags"] }) ∧
      select (fun name => name ∉ ["name", "tags"] ∨ name = idField) grown =
        select (fun name => name ∉ ["name", "tags"] ∨ name = idField) rex := by
  intro rex grown wet
  have hread : ofJson wet = .ok { changes := [.unset "name", .push "tags" [.string "wet"]] } := rfl
  have happly : apply { changes := [.unset "name", .push "tags" [.string "wet"]] } rex =
      .ok (grown, { modified := true, touched := ["name", "tags"] }) := rfl
  obtain ⟨-, -, hselect, -⟩ := untouched_apply hread happly
  exact ⟨_, hread, happly, hselect⟩

end Update

end DocStore
