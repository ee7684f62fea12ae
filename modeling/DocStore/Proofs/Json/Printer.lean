import DocStore.Proofs.Json.Numeral

/-!
# What printed JSON looks like

The text of a JSON value has no control characters, so it never breaks a line.
-/

set_option autoImplicit false

namespace DocStore

/-- A text without control characters. -/
def Plain (text : String) : Prop := ∀ c ∈ text.toList, 32 ≤ c.toNat

instance (text : String) : Decidable (Plain text) :=
  List.decidableBAll _ text.toList

theorem plain_ofList {cs : List Char} : Plain (String.ofList cs) ↔ ∀ c ∈ cs, 32 ≤ c.toNat := by
  rw [Plain, String.toList_ofList]

theorem plain_append {a b : String} : Plain (a ++ b) ↔ Plain a ∧ Plain b := by
  simp [Plain, or_imp, forall_and]

/-! ## Numbers -/

theorem le_of_isNumeric {c : Char} (h : Json.Token.isNumeric c = true) : 32 ≤ c.toNat := by
  simp only [Json.Token.isNumeric, Char.isDigit, Bool.or_eq_true, Bool.and_eq_true,
    decide_eq_true_eq, beq_iff_eq] at h
  rcases h with ((((⟨hlow, -⟩ | rfl) | rfl) | rfl) | rfl) | rfl
  · have hlow : 48 ≤ c.val.toNat := hlow
    change 32 ≤ c.val.toNat
    omega
  all_goals decide

theorem Numeric.plain {text : String} (h : Numeric text) : Plain text :=
  fun c hc => le_of_isNumeric (h c hc)

namespace Json

/-! ## Values -/

theorem le_hexDigit : ∀ n < 16, 32 ≤ (hexDigit n).toNat := by decide

/-- Control characters are written as escapes. -/
theorem le_of_mem_escapeChar {c d : Char} (h : d ∈ escapeChar c) : 32 ≤ d.toNat := by
  unfold escapeChar at h
  split at h
  case h_8 =>
    split at h
    · rename_i hlow
      have hhigh := le_hexDigit (c.toNat / 16) (by omega)
      have hrest := le_hexDigit (c.toNat % 16) (by omega)
      simp only [List.mem_cons, List.not_mem_nil, or_false] at h
      rcases h with rfl | rfl | rfl | rfl | rfl | rfl
      · decide
      · decide
      · decide
      · decide
      · exact hhigh
      · exact hrest
    · rename_i hlow
      rw [List.mem_singleton.1 h]
      omega
  all_goals
    simp only [List.mem_cons, List.not_mem_nil, or_false] at h
    rcases h with rfl | rfl <;> decide

theorem plain_quote (s : String) : Plain (quote s) := by
  refine plain_ofList.2 fun c hc => ?_
  rcases List.mem_append.1 hc with hc | hc
  · rcases List.mem_cons.1 hc with rfl | hc
    · decide
    · obtain ⟨d, _, hd⟩ := List.mem_flatMap.1 hc
      exact le_of_mem_escapeChar hd
  · rw [List.mem_singleton.1 hc]
    decide

theorem Number.plain_render (n : Number) : Plain n.render := by
  cases n with
  | integer n => exact (numeric_toString_int n).plain
  | double f =>
      rw [Number.render]
      cases hf : Binary64.isFinite f with
      | true =>
          obtain ⟨sign, text, htext, hsign, hnumeric, -⟩ := Decimal.format_json hf
          have hplain : Plain sign := by rcases hsign with rfl | rfl <;> decide
          simp only [if_true, htext]
          exact plain_append.2 ⟨hplain, hnumeric.plain⟩
      | false => exact (by decide : Plain "null")

mutual

/-- **Printed JSON has no control characters.** -/
theorem plain_render : ∀ j : Json, Plain j.render
  | .null => by rw [render]; decide
  | .bool b => by cases b <;> rw [render] <;> decide
  | .number n => by rw [render]; exact n.plain_render
  | .string s => by rw [render]; exact plain_quote s
  | .array items => by
      rw [render]
      exact plain_append.2 ⟨plain_append.2 ⟨by decide, plain_renderItems items⟩, by decide⟩
  | .object fields => by
      rw [render]
      exact plain_append.2 ⟨plain_append.2 ⟨by decide, plain_renderFields fields⟩, by decide⟩

theorem plain_renderItems : ∀ items : List Json, Plain (renderItems items)
  | [] => by rw [renderItems]; decide
  | [v] => by rw [renderItems]; exact plain_render v
  | v :: w :: rest => by
      rw [renderItems_cons_cons]
      exact plain_append.2
        ⟨plain_append.2 ⟨plain_render v, by decide⟩, plain_renderItems (w :: rest)⟩

theorem plain_renderFields : ∀ fields : List (String × Json), Plain (renderFields fields)
  | [] => by rw [renderFields]; decide
  | [(k, v)] => by
      rw [renderFields]
      exact plain_append.2 ⟨plain_append.2 ⟨plain_quote k, by decide⟩, plain_render v⟩
  | (k, v) :: e :: rest => by
      rw [renderFields_cons_cons]
      exact plain_append.2 ⟨plain_append.2 ⟨plain_append.2 ⟨plain_append.2
        ⟨plain_quote k, by decide⟩, plain_render v⟩, by decide⟩, plain_renderFields (e :: rest)⟩

end

end Json

end DocStore
