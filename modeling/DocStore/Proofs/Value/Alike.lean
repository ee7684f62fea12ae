import DocStore.Value.Order

/-!
# Alike values

Equality of content is not transitive: an integer equals the double that it is rounded to, which
other integers are rounded to as well. `Alike` is a finer relation that is symmetric and transitive,
of values with the same kinds everywhere and the fields of objects in the same order. Doubles that
are no number are like nothing.
-/

set_option autoImplicit false

namespace DocStore

/-! ## Doubles -/

namespace Binary64

theorem equal_iff {a b : Float} :
    equal a b = true ↔ isNaN a = false ∧ isNaN b = false ∧ scaled a = scaled b := by
  simp [equal, and_assoc]

theorem equal_symm {a b : Float} (h : equal a b = true) : equal b a = true := by
  obtain ⟨ha, hb, hab⟩ := equal_iff.1 h
  exact equal_iff.2 ⟨hb, ha, hab.symm⟩

theorem equal_trans {a b c : Float} (hab : equal a b = true) (hbc : equal b c = true) :
    equal a c = true := by
  obtain ⟨ha, -, hab⟩ := equal_iff.1 hab
  obtain ⟨-, hc, hbc⟩ := equal_iff.1 hbc
  exact equal_iff.2 ⟨ha, hc, hab.trans hbc⟩

end Binary64

namespace Value

/-! ## Fields with equal values -/

/-- Each field has an equal one of the same name. -/
theorem equalFields_iff {fields others : Fields Value} : equalFields fields others = true ↔
    ∀ e ∈ fields, ∃ w, Fields.get? others e.1 = some w ∧ equal e.2 w = true := by
  induction fields with
  | nil => simp [equalFields]
  | cons e rest ih =>
      obtain ⟨k, v⟩ := e
      rw [equalFields, Bool.and_eq_true, ih, List.forall_mem_cons]
      cases Fields.get? others k <;> simp

/-! ## Alike values -/

mutual

/-- Values with the same kinds and equal contents. -/
inductive Alike : Value → Value → Prop
  | null : Alike .null .null
  | bool (b : Bool) : Alike (.bool b) (.bool b)
  | int (n : Int64) : Alike (.int n) (.int n)
  | float {a b : Float} (h : Binary64.equal a b = true) : Alike (.float a) (.float b)
  | string (s : String) : Alike (.string s) (.string s)
  | date (t : Instant) : Alike (.date t) (.date t)
  | array {as bs : List Value} (h : AlikeItems as bs) : Alike (.array as) (.array bs)
  | object {as bs : List (String × Value)} (hkeys : (Fields.keys as).Nodup)
      (h : AlikeFields as bs) : Alike (.object as) (.object bs)

/-- Arrays whose items are alike. -/
inductive AlikeItems : List Value → List Value → Prop
  | nil : AlikeItems [] []
  | cons {a b : Value} {as bs : List Value} (head : Alike a b) (tail : AlikeItems as bs) :
      AlikeItems (a :: as) (b :: bs)

/-- Fields with the same names in the same order, whose values are alike. -/
inductive AlikeFields : List (String × Value) → List (String × Value) → Prop
  | nil : AlikeFields [] []
  | cons (k : String) {a b : Value} {as bs : List (String × Value)} (head : Alike a b)
      (tail : AlikeFields as bs) : AlikeFields ((k, a) :: as) ((k, b) :: bs)

end

theorem AlikeFields.keys_eq {as bs : List (String × Value)} (h : AlikeFields as bs) :
    Fields.keys as = Fields.keys bs := by
  induction as generalizing bs with
  | nil =>
      cases h
      rfl
  | cons e rest ih =>
      cases h with
      | cons k head tail => exact congrArg (k :: ·) (ih tail)

mutual

theorem Alike.symm : ∀ {a b : Value}, Alike a b → Alike b a
  | _, _, .null => .null
  | _, _, .bool b => .bool b
  | _, _, .int n => .int n
  | _, _, .float h => .float (Binary64.equal_symm h)
  | _, _, .string s => .string s
  | _, _, .date t => .date t
  | _, _, .array h => .array h.symm
  | _, _, .object hkeys h => .object (h.keys_eq ▸ hkeys) h.symm

theorem AlikeItems.symm : ∀ {as bs : List Value}, AlikeItems as bs → AlikeItems bs as
  | _, _, .nil => .nil
  | _, _, .cons head tail => .cons head.symm tail.symm

theorem AlikeFields.symm :
    ∀ {as bs : List (String × Value)}, AlikeFields as bs → AlikeFields bs as
  | _, _, .nil => .nil
  | _, _, .cons k head tail => .cons k head.symm tail.symm

end

mutual

theorem Alike.trans : ∀ {a b c : Value}, Alike a b → Alike b c → Alike a c
  | _, _, _, .null, h => h
  | _, _, _, .bool _, h => h
  | _, _, _, .int _, h => h
  | _, _, _, .float h, .float h' => .float (Binary64.equal_trans h h')
  | _, _, _, .string _, h => h
  | _, _, _, .date _, h => h
  | _, _, _, .array h, .array h' => .array (h.trans h')
  | _, _, _, .object hkeys h, .object _ h' => .object hkeys (h.trans h')

theorem AlikeItems.trans :
    ∀ {as bs cs : List Value}, AlikeItems as bs → AlikeItems bs cs → AlikeItems as cs
  | _, _, _, .nil, .nil => .nil
  | _, _, _, .cons head tail, .cons head' tail' => .cons (head.trans head') (tail.trans tail')

theorem AlikeFields.trans : ∀ {as bs cs : List (String × Value)},
    AlikeFields as bs → AlikeFields bs cs → AlikeFields as cs
  | _, _, _, .nil, .nil => .nil
  | _, _, _, .cons k head tail, .cons _ head' tail' =>
      .cons k (head.trans head') (tail.trans tail')

end

/-! ## Alike values are equal -/

mutual

theorem Alike.equal : ∀ {a b : Value}, Alike a b → equal a b = true
  | _, _, .null => rfl
  | _, _, .bool b => by simp [Value.equal]
  | _, _, .int n => by simp [Value.equal, equalNumbers]
  | _, _, .float h => by simpa [Value.equal, equalNumbers] using h
  | _, _, .string s => by simp [Value.equal]
  | _, _, .date t => by simp [Value.equal]
  | _, _, .array h => h.equal
  | .object as, .object bs, .object hkeys h => by
      have hlength : as.length = bs.length := by
        simpa [Fields.keys] using congrArg List.length h.keys_eq
      rw [Value.equal, hlength, beq_self_eq_true, Bool.true_and]
      exact h.equalFields fun e he => Fields.get?_of_mem (h.keys_eq ▸ hkeys) he

theorem AlikeItems.equal :
    ∀ {as bs : List Value}, AlikeItems as bs → equalItems as bs = true
  | _, _, .nil => rfl
  | _, _, .cons head tail => by rw [equalItems, head.equal, tail.equal, Bool.true_and]

theorem AlikeFields.equalFields : ∀ {as bs others : List (String × Value)}, AlikeFields as bs →
    (∀ e ∈ bs, Fields.get? others e.1 = some e.2) → equalFields as others = true
  | _, _, _, .nil, _ => rfl
  | _, _, others, .cons k head tail, h => by
      rw [Value.equalFields, h _ List.mem_cons_self,
        tail.equalFields fun e he => h e (List.mem_cons_of_mem _ he), Bool.and_true]
      exact head.equal

end

end Value

end DocStore
