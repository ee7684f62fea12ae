/-!
# Machine integers without wrap-around

The 64-bit results of integer arithmetic, or none where the exact result does not fit.
-/

set_option autoImplicit false

namespace DocStore.Checked

/-- The machine integer of an exact one, if it fits. -/
def ofInt? (n : Int) : Option Int64 :=
  if Int64.minValue.toInt ≤ n ∧ n ≤ Int64.maxValue.toInt then some (Int64.ofInt n) else none

/-- The sum, if it fits. -/
def add? (a b : Int64) : Option Int64 := ofInt? (a.toInt + b.toInt)

/-- The difference, if it fits. -/
def sub? (a b : Int64) : Option Int64 := ofInt? (a.toInt - b.toInt)

/-- The product, if it fits. -/
def mul? (a b : Int64) : Option Int64 := ofInt? (a.toInt * b.toInt)

/-- A machine integer fits. -/
theorem ofInt?_toInt (n : Int64) : ofInt? n.toInt = some n := by
  rw [ofInt?, if_pos ⟨n.le_toInt, Int.le_of_lt_add_one n.toInt_lt⟩, Int64.ofInt_toInt]

theorem toInt_of_ofInt? {n : Int} {k : Int64} (h : ofInt? n = some k) : k.toInt = n := by
  unfold ofInt? at h
  split at h
  · rename_i hn
    cases h
    exact Int64.toInt_ofInt_of_le hn.1 (Int.lt_of_le_of_lt hn.2 (by decide))
  · cases h

end DocStore.Checked
