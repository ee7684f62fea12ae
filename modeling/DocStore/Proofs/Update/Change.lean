import DocStore.Proofs.Value.Place
import DocStore.Update

/-!
# What changes do

A change looks its path up and then writes at it. Items are pushed in the place of the array itself,
which is a write of the longer array. An update makes its changes one after another.
-/

set_option autoImplicit false

namespace DocStore

namespace Change

variable {m : Fields Value} {path : String} {items : List Value}

/-! ## Writing a value -/

theorem assign_eq (m : Fields Value) (path : String) (v : Value) : assign m path v =
    if (Fields.getPath? m path).any (identical · v) then .ok (m, false)
    else (Fields.setPath? m path v).map fun m => (m, true) := by
  rw [assign, Fields.lookup?_eq]

/-- **What assigning a value did**: nothing where an identical one was found, else it wrote the
value. -/
theorem assign_cases {m' : Fields Value} {v : Value} {changed : Bool}
    (h : assign m path v = .ok (m', changed)) :
    (∃ w, Fields.getPath? m path = some w ∧ identical w v = true ∧ m' = m ∧ changed = false) ∨
      (Fields.setPath? m path v = .ok m' ∧ changed = true) := by
  rw [assign_eq] at h
  split at h
  · rename_i hany
    obtain ⟨w, hw, hsame⟩ := (Option.any_eq_true _ _).1 hany
    cases h
    exact .inl ⟨w, hw, hsame, rfl, rfl⟩
  · obtain ⟨_, hset, heq⟩ := map_eq_ok.1 h
    cases heq
    exact .inr ⟨hset, rfl⟩

/-- An increment assigns the sum of what is there, or the number itself. -/
theorem apply_increment (m : Fields Value) (path : String) (delta : Value) :
    (increment path delta).apply m =
      ((Fields.getPath? m path).elim (.ok delta) fun current => sum path current delta).bind
        (assign m path) := by
  rw [← Fields.lookup?_eq, apply]
  cases Fields.lookup? m path with
  | none => rfl
  | some current => rfl

/-- What an increment assigned. -/
theorem exists_assign_of_increment {delta : Value} {out : Fields Value × Bool}
    (h : (increment path delta).apply m = .ok out) :
    ∃ v, (Fields.getPath? m path).elim (.ok delta) (sum path · delta) = .ok v ∧
      assign m path v = .ok out := by
  rw [apply_increment] at h
  exact bind_eq_ok.1 h

/-! ## Removing fields -/

theorem apply_unset (m : Fields Value) (path : String) : (unset path).apply m =
    .ok ((Fields.erasePath m path).1, (Fields.erasePath m path).2.isSome) := by
  rw [apply]
  obtain ⟨m', old⟩ := Fields.erasePath m path
  cases old with
  | none => rfl
  | some v => rfl

/-! ## Pushing items -/

/-- The array that is there is replaced by the longer one. -/
theorem apply_push_of_array {existing : List Value}
    (h : Fields.getPath? m path = some (.array existing)) : (push path items).apply m =
      (Fields.setPath? m path (.array (existing ++ items))).map fun m => (m, !items.isEmpty) := by
  obtain ⟨p, hp, hheld⟩ := Fields.place?_of_getPath? h
  rw [Fields.setPath?_of_place? hp]
  simp only [apply, hp, hheld]
  rfl

theorem apply_push_of_other {v : Value} (h : Fields.getPath? m path = some v)
    (hv : v.array? = none) :
    (push path items).apply m = .error (.type (.pushTarget path v.kind)) := by
  obtain ⟨p, hp, rfl⟩ := Fields.place?_of_getPath? h
  simp only [apply, hp]
  split
  · rename_i hheld
    rw [hheld] at hv
    cases hv
  · rfl

theorem apply_push_of_none (h : Fields.getPath? m path = none) : (push path items).apply m =
    (Fields.setPath? m path (.array items)).map fun m => (m, true) := by
  simp only [apply, Fields.place?_eq_none h]

/-- **What pushing items did**: it made the array longer that was there, or wrote a new one. -/
theorem apply_push_cases {m' : Fields Value} {changed : Bool}
    (h : (push path items).apply m = .ok (m', changed)) :
    (∃ existing, Fields.getPath? m path = some (.array existing) ∧
        Fields.setPath? m path (.array (existing ++ items)) = .ok m' ∧
          changed = !items.isEmpty) ∨
      (Fields.getPath? m path = none ∧ Fields.setPath? m path (.array items) = .ok m' ∧
        changed = true) := by
  cases hpath : Fields.getPath? m path with
  | none =>
      rw [apply_push_of_none hpath] at h
      obtain ⟨_, hset, heq⟩ := map_eq_ok.1 h
      cases heq
      exact .inr ⟨rfl, hset, rfl⟩
  | some v =>
      cases v with
      | array existing =>
          rw [apply_push_of_array hpath] at h
          obtain ⟨_, hset, heq⟩ := map_eq_ok.1 h
          cases heq
          exact .inl ⟨existing, rfl, hset, rfl⟩
      | _ =>
          rw [apply_push_of_other hpath rfl] at h
          cases h

end Change

/-! ## Changes in a row -/

namespace Update

variable {m m' : Fields Value} {changes : List Change} {changed : Bool}

/-- **One change and then the others.** -/
theorem applyChanges_cons_eq_ok {c : Change} :
    applyChanges m (c :: changes) = .ok (m', changed) ↔
      ∃ m₁ now later, c.apply m = .ok (m₁, now) ∧ applyChanges m₁ changes = .ok (m', later) ∧
        changed = (now || later) := by
  constructor
  · intro h
    obtain ⟨⟨m₁, now⟩, hnow, h⟩ := bind_eq_ok.1 h
    obtain ⟨⟨m₂, later⟩, hlater, h⟩ := bind_eq_ok.1 h
    cases h
    exact ⟨m₁, now, later, hnow, hlater, rfl⟩
  · rintro ⟨m₁, now, later, hnow, hlater, rfl⟩
    rw [applyChanges, hnow]
    show (applyChanges m₁ changes >>= _) = _
    rw [hlater]
    rfl

/-- An update makes its changes, and names the fields that their paths start with. -/
theorem apply_eq_ok {u : Update} {effect : UpdateEffect} : u.apply m = .ok (m', effect) ↔
    applyChanges m u.changes = .ok (m', effect.modified) ∧ effect.touched = touched u.changes := by
  constructor
  · intro h
    obtain ⟨_, hchanges, h⟩ := bind_eq_ok.1 h
    cases h
    exact ⟨hchanges, rfl⟩
  · obtain ⟨modified, names⟩ := effect
    rintro ⟨hchanges, htouched⟩
    obtain rfl : names = touched u.changes := htouched
    rw [apply, hchanges]
    rfl

end Update

end DocStore
