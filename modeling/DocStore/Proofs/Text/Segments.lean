import DocStore.Proofs.Json.Numeral
import DocStore.Text.Segments

/-!
# Paths put together

A name without a dot is a path of one segment, and so is the index of an item. A path behind another
one has the segments of both.
-/

set_option autoImplicit false

namespace DocStore.Segments

theorem split_eq_singleton {cs : List Char} (h : '.' ∉ cs) : split cs = [cs] := by
  induction cs with
  | nil => rfl
  | cons c rest ih =>
      obtain ⟨hc, hrest⟩ := not_or.1 (mt List.mem_cons.2 h)
      rw [split, if_neg (Ne.symm hc), ih hrest]

theorem ofPath_of_not_mem {name : String} (h : '.' ∉ name.toList) : ofPath name = [name] := by
  rw [ofPath, split_eq_singleton h, List.map_singleton, String.ofList_toList]

theorem split_append (cs ds : List Char) : split (cs ++ '.' :: ds) = split cs ++ split ds := by
  induction cs with
  | nil => simp [split]
  | cons c cs ih =>
      rw [List.cons_append, split, split, ih]
      split
      · rfl
      · cases hsplit : split cs with
        | nil => exact absurd hsplit (split_ne_nil cs)
        | cons piece rest => rfl

/-- **A path behind another one** has the segments of both. -/
theorem ofPath_append (parent name : String) :
    ofPath (parent ++ "." ++ name) = ofPath parent ++ ofPath name := by
  have hchars : (parent ++ "." ++ name).toList = parent.toList ++ '.' :: name.toList := by simp
  rw [ofPath, hchars, split_append, List.map_append, ofPath, ofPath]

/-! ## Indices -/

theorem toList_toString (i : Nat) : (toString i).toList = Nat.toDigits 10 i := by
  rw [Nat.toString_eq_ofList_toDigits, String.toList_ofList]

theorem ofPath_toString (i : Nat) : ofPath (toString i) = [toString i] := by
  refine ofPath_of_not_mem fun hdot => ?_
  rw [toList_toString] at hdot
  exact absurd (isDigit_of_mem_decimal hdot) (by decide)

/-- The text of an index names the index. -/
theorem index?_toString {i : Nat} (h : i < UInt64.size) : index? (toString i) = some i := by
  obtain ⟨c, cs, hcs, hc⟩ := exists_toDigits i
  have hdigits : (c :: cs).all Char.isDigit = true :=
    List.all_eq_true.2 fun _ hmem => isDigit_of_mem_decimal (hcs ▸ hmem)
  have hvalue : (c :: cs).foldl (fun n c => n * 10 + (c.toNat - 48)) 0 = i := by
    rw [← hcs]
    exact Json.Numeral.digitsValue_toDigits i
  -- No digit is a plus sign.
  have hplus : c ≠ '+' := by
    rintro rfl
    exact absurd hc (by decide)
  unfold index?
  rw [toList_toString, hcs]
  split
  · rename_i ds heq
    cases heq
    exact absurd rfl hplus
  · simp only [hdigits, hvalue, h, ne_eq, reduceCtorEq, not_false_eq_true, and_self, if_true]

end DocStore.Segments
