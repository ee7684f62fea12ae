import DocStore.Proofs.Fields
import DocStore.Proofs.Json.Reader
import DocStore.Proofs.Value.Alike
import DocStore.Proofs.Value.Everywhere
import DocStore.Value.Json

/-!
# Values read back from JSON

A value that was written as JSON and is read back as an equal one is alike the one that was written:
integers and doubles are kept apart, and no two fields of an object have the same name.
-/

set_option autoImplicit false

namespace DocStore.Value

open Json (rereadItems? rereadFields? mergedItems mergedFields)

/-! ## Fields -/

theorem keys_mergedFields (fields : List (String × Json)) :
    Fields.keys (mergedFields fields) = Fields.keys fields := by
  induction fields with
  | nil => rfl
  | cons e rest ih => exact congrArg (e.1 :: ·) ih

theorem keys_ofJsonFields (fields : List (String × Json)) :
    Fields.keys (ofJsonFields fields) = Fields.keys fields := by
  induction fields with
  | nil => rfl
  | cons e rest ih => exact congrArg (e.1 :: ·) ih

theorem ofJsonFields_eq_map (fields : List (String × Json)) :
    ofJsonFields fields = fields.map fun e => (e.1, ofJson e.2) := by
  induction fields with
  | nil => rfl
  | cons e rest ih => exact congrArg ((e.1, ofJson e.2) :: ·) ih

theorem ofJsonItems_eq_map (items : List Json) : ofJsonItems items = items.map ofJson := by
  induction items with
  | nil => rfl
  | cons j rest ih => exact congrArg (ofJson j :: ·) ih

theorem get?_ofJsonFields (name : String) (fields : List (String × Json)) :
    Fields.get? (ofJsonFields fields) name = (Fields.get? fields name).map ofJson := by
  induction fields with
  | nil => rfl
  | cons e rest ih =>
      obtain ⟨k, j⟩ := e
      by_cases hk : k = name
      · simp [Fields.get?, ofJsonFields, hk]
      · simpa [Fields.get?, ofJsonFields, hk] using ih

/-- The names that are read back are those that were written. -/
theorem keys_reread : ∀ {fields : List (String × Value)} {read : List (String × Json)},
    rereadFields? (toJsonFields fields) = some read → Fields.keys read = Fields.keys fields
  | [], _, h => by
      cases h
      rfl
  | (k, v) :: rest, read, h => by
      obtain ⟨_, more, _, hmore, rfl⟩ := Json.rereadFields?_cons.1 h
      exact congrArg (k :: ·) (keys_reread hmore)

/-- If none of the fields that were read back was merged with another, they are all there, with
different names. -/
theorem fields_of_length {fields : List (String × Value)} {read : List (String × Json)}
    (hread : rereadFields? (toJsonFields fields) = some read)
    (hlength : (ofJsonFields (Fields.ofEntries (mergedFields read))).length = fields.length) :
    Fields.ofEntries (mergedFields read) = mergedFields read ∧ (Fields.keys fields).Nodup := by
  have hall : Fields.ofEntries (mergedFields read) = mergedFields read := by
    refine Fields.ofEntries_eq_self ?_
    calc
      (Fields.ofEntries (mergedFields read)).length
        = (ofJsonFields (Fields.ofEntries (mergedFields read))).length :=
          (Fields.length_eq_of_keys (keys_ofJsonFields _)).symm
      _ = fields.length := hlength
      _ = read.length := (Fields.length_eq_of_keys (keys_reread hread)).symm
      _ = (mergedFields read).length := (Fields.length_eq_of_keys (keys_mergedFields read)).symm
  refine ⟨hall, ?_⟩
  rw [← keys_reread hread, ← keys_mergedFields, ← hall]
  exact Fields.nodup_keys_ofEntries _

/-! ## Fields without one -/

theorem erase_mergedFields (name : String) (fields : List (String × Json)) :
    mergedFields (Fields.erase fields name) = Fields.erase (mergedFields fields) name := by
  induction fields with
  | nil => rfl
  | cons e rest ih =>
      obtain ⟨k, j⟩ := e
      by_cases hk : k = name
      · simp [Fields.erase, mergedFields, hk]
      · simp [Fields.erase, mergedFields, hk, ih]

theorem erase_ofJsonFields (name : String) (fields : List (String × Json)) :
    ofJsonFields (Fields.erase fields name) = Fields.erase (ofJsonFields fields) name := by
  induction fields with
  | nil => rfl
  | cons e rest ih =>
      obtain ⟨k, j⟩ := e
      by_cases hk : k = name
      · simp [Fields.erase, ofJsonFields, hk]
      · simp [Fields.erase, ofJsonFields, hk, ih]

/-- The other fields are read back as the others that were written. -/
theorem reread_erase (name : String) : ∀ {fields : List (String × Value)}
    {read : List (String × Json)}, rereadFields? (toJsonFields fields) = some read →
    rereadFields? (toJsonFields (Fields.erase fields name)) = some (Fields.erase read name)
  | [], _, h => by
      cases h
      rfl
  | (k, v) :: rest, _, h => by
      obtain ⟨j, more, hj, hmore, rfl⟩ := Json.rereadFields?_cons.1 h
      by_cases hk : k = name
      · simpa [Fields.erase, hk] using hmore
      · simp [Fields.erase, hk, toJsonFields, rereadFields?, hj, reread_erase name hmore]

/-! ## Values -/

theorem alike_int (n : Int64) {j : Json} (hread : (toJson (.int n)).reread? = some j) :
    Alike (ofJson j.merged) (.int n) := by
  have hmin : Int64.minValue.toInt ≤ n.toInt := n.le_toInt
  have hmax : n.toInt < 2 ^ 63 := n.toInt_lt
  have hnumeral : (toJson (.int n)).reread? = some (.number (.integer n.toInt)) := by
    rw [toJson, Json.reread?, Json.Number.reread?, Json.Numeral.read?_toString hmin]
    · rfl
    · exact Int.lt_trans hmax (by decide)
  rw [hnumeral] at hread
  cases hread
  have hvalue : ofJson (Json.merged (.number (.integer n.toInt))) =
      ofNumber (.integer n.toInt) := rfl
  rw [hvalue, ofNumber, Json.Number.toInt64?, Checked.ofInt?_toInt]
  exact .int n

/-- The double that was read back is one. -/
theorem alike_float {f : Float} {j : Json} (hread : (toJson (.float f)).reread? = some j)
    (h : equal (ofJson j.merged) (.float f) = true) : Alike (ofJson j.merged) (.float f) := by
  unfold toJson at hread
  split at hread
  · rename_i hf
    rw [Json.reread?, Json.Number.reread?, if_pos hf] at hread
    obtain ⟨n, hn, rfl⟩ := Option.map_eq_some_iff.1 hread
    obtain ⟨g, rfl⟩ := Json.Numeral.read?_format hf hn
    exact .float h
  · cases hread
    cases h

theorem alike_date {t : Instant} {j : Json} (hread : (toJson (.date t)).reread? = some j)
    (h : equal (ofJson j.merged) (.date t) = true) : Alike (ofJson j.merged) (.date t) := by
  cases hread
  have hmerged : Json.merged (.object [(dateField, .string (Rfc3339.text t))]) =
      .object [(dateField, .string (Rfc3339.text t))] := rfl
  rw [hmerged, ofJson] at h ⊢
  split at h
  · rename_i t' _
    have ht : t' = t := by simpa [equal] using h
    subst ht
    exact .date t'
  · cases h

theorem ofJson_object_eq (fields : Fields Json) : ofJson (.object fields) =
    (wrappedDate? fields).elim (.object (ofJsonFields fields)) .date := by
  rw [ofJson]
  cases wrappedDate? fields <;> rfl

/-- An object is a date or has the values of its fields. -/
theorem ofJson_object (fields : Fields Json) : (∃ t, ofJson (.object fields) = .date t) ∨
    ofJson (.object fields) = .object (ofJsonFields fields) := by
  rw [ofJson_object_eq]
  cases wrappedDate? fields with
  | some t => exact .inl ⟨t, rfl⟩
  | none => exact .inr rfl

mutual

/-- **What is read back and equal is alike.** -/
theorem alike_of_reread : ∀ {v : Value} {j : Json}, v.toJson.reread? = some j →
    equal (ofJson j.merged) v = true → Alike (ofJson j.merged) v
  | .null, _, hread, _ => by
      cases hread
      exact .null
  | .bool b, _, hread, _ => by
      cases hread
      exact .bool b
  | .int n, _, hread, _ => alike_int n hread
  | .float f, _, hread, h => alike_float hread h
  | .string s, _, hread, _ => by
      cases hread
      exact .string s
  | .date t, _, hread, h => alike_date hread h
  | .array items, _, hread, h => by
      obtain ⟨read, hitems, rfl⟩ := Option.map_eq_some_iff.1 hread
      exact .array (alikeItems_of_reread hitems h)
  | .object fields, _, hread, h => by
      obtain ⟨read, hfields, rfl⟩ := Option.map_eq_some_iff.1 hread
      rw [Json.merged] at h ⊢
      -- A date equals no object, so the fields were not read as one.
      rcases ofJson_object (Fields.ofEntries (mergedFields read)) with ⟨t, hdate⟩ | hobject
      · rw [hdate] at h
        cases h
      · rw [hobject] at h ⊢
        obtain ⟨hlength, hequal⟩ := Bool.and_eq_true_iff.1 h
        obtain ⟨hall, hkeys⟩ := fields_of_length hfields (eq_of_beq hlength)
        rw [hall] at hequal ⊢
        have halike := alikeFields_of_reread hfields hequal fun e => Fields.get?_of_mem hkeys
        exact .object (halike.keys_eq ▸ hkeys) halike

theorem alikeItems_of_reread : ∀ {items : List Value} {read : List Json},
    rereadItems? (toJsonItems items) = some read →
    equalItems (ofJsonItems (mergedItems read)) items = true →
    AlikeItems (ofJsonItems (mergedItems read)) items
  | [], _, hread, _ => by
      cases hread
      exact .nil
  | v :: rest, _, hread, h => by
      obtain ⟨j, more, hj, hmore, rfl⟩ := Json.rereadItems?_cons.1 hread
      obtain ⟨hv, hrest⟩ := Bool.and_eq_true_iff.1 h
      exact .cons (alike_of_reread hj hv) (alikeItems_of_reread hmore hrest)

/-- Fields that were read back are alike those that they were written from, if each equals the one
that is found under its name. -/
theorem alikeFields_of_reread : ∀ {fields : List (String × Value)} {read : List (String × Json)}
    {others : Fields Value}, rereadFields? (toJsonFields fields) = some read →
    equalFields (ofJsonFields (mergedFields read)) others = true →
    (∀ e ∈ fields, Fields.get? others e.1 = some e.2) →
    AlikeFields (ofJsonFields (mergedFields read)) fields
  | [], _, _, hread, _, _ => by
      cases hread
      exact .nil
  | (k, v) :: rest, _, others, hread, h, hothers => by
      obtain ⟨j, more, hj, hmore, rfl⟩ := Json.rereadFields?_cons.1 hread
      obtain ⟨hv, hrest⟩ := Bool.and_eq_true_iff.1 h
      rw [hothers _ List.mem_cons_self] at hv
      exact .cons k (alike_of_reread hj hv)
        (alikeFields_of_reread hmore hrest fun e he => hothers e (List.mem_cons_of_mem _ he))

end

/-! ## Properties of values from JSON -/

section Everywhere

variable {L : Value → Prop} {N : List (String × Value) → Prop} {J : Json → Prop}

/-- A property of JSON that its parts inherit, and that gives the value a property at its top. -/
structure Conveys (J : Json → Prop) (L : Value → Prop) (N : List (String × Value) → Prop) :
    Prop where
  items : ∀ {items : List Json}, J (.array items) → ∀ j ∈ items, J j
  fields : ∀ {fields : List (String × Json)}, J (.object fields) → ∀ e ∈ fields, J e.2
  top : ∀ {j : Json}, J j → AtTop L N (ofJson j)

mutual

/-- **What holds at the top of all values from JSON holds at every depth.** -/
theorem Conveys.value (h : Conveys J L N) : ∀ j : Json, J j → Everywhere L N (ofJson j)
  | .null, hj => h.top hj
  | .bool _, hj => h.top hj
  | .number n, hj => by
      have hnumber := h.top hj
      rw [ofJson, ofNumber] at hnumber ⊢
      split at hnumber <;> exact hnumber
  | .string _, hj => h.top hj
  | .array items, hj => h.valueItems items (h.items hj)
  | .object fields, hj => by
      have hobject := h.top hj
      rw [ofJson] at hobject ⊢
      split at hobject
      · exact hobject
      · exact ⟨hobject, h.valueFields fields (h.fields hj)⟩

theorem Conveys.valueItems (h : Conveys J L N) : ∀ items : List Json, (∀ j ∈ items, J j) →
    EverywhereItems L N (ofJsonItems items)
  | [], _ => trivial
  | j :: rest, hj => ⟨h.value j (hj j List.mem_cons_self),
      h.valueItems rest fun i hi => hj i (List.mem_cons_of_mem j hi)⟩

theorem Conveys.valueFields (h : Conveys J L N) : ∀ fields : List (String × Json),
    (∀ e ∈ fields, J e.2) → EverywhereFields L N (ofJsonFields fields)
  | [], _ => trivial
  | (k, j) :: rest, hj => ⟨h.value j (hj (k, j) List.mem_cons_self),
      h.valueFields rest fun e he => hj e (List.mem_cons_of_mem (k, j) he)⟩

end

end Everywhere

end DocStore.Value
