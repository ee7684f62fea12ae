import DocStore.Proofs.Value.Regular

/-!
# Values that survive being written

A regular value is read back from its JSON text as an equal one iff it is `Writable`: its doubles
are finite and their numerals are read as equal doubles, its dates have years of four digits and
whole milliseconds, and none of its objects has the JSON form of a date.
-/

set_option autoImplicit false

namespace DocStore.Value

open Json (rereadItems? rereadFields? mergedItems mergedFields)

/-- What is asked of scalars. -/
def WritableScalar : Value → Prop
  | float f => Binary64.isFinite f = true ∧
      ∃ g, Json.Numeral.read? (Decimal.Layout.json.format f).toList = some (.double g) ∧
        Binary64.equal g f = true
  | date t => t.HasShortYear ∧ 1000000 ∣ t.nanos
  | _ => True

/-- What is asked of objects. -/
def Unwrapped (fields : List (String × Value)) : Prop := wrappedDate? (toJsonFields fields) = none

/-- A value that its JSON text keeps. -/
def Writable : Value → Prop := Everywhere WritableScalar Unwrapped

/-- The same of the items of an array. -/
def WritableItems : List Value → Prop := EverywhereItems WritableScalar Unwrapped

/-- The same of the values of fields. -/
def WritableFields : List (String × Value) → Prop := EverywhereFields WritableScalar Unwrapped

/-! ## Scalars -/

theorem reread_int (n : Int64) : (toJson (.int n)).reread? = some (toJson (.int n)) := by
  have hmin : Int64.minValue.toInt ≤ n.toInt := n.le_toInt
  have hmax : n.toInt < 2 ^ 63 := n.toInt_lt
  rw [toJson, Json.reread?, Json.Number.reread?,
    Json.Numeral.read?_toString hmin (Int.lt_trans hmax (by decide))]
  rfl

/-- A double is kept if its numeral is read as an equal one. -/
theorem exists_reread_float (f : Float) :
    (∃ j, (toJson (.float f)).reread? = some j ∧ Alike (ofJson j.merged) (.float f)) ↔
      WritableScalar (.float f) := by
  by_cases hf : Binary64.isFinite f = true
  · have hread : (toJson (.float f)).reread? =
        (Json.Numeral.read? (Decimal.Layout.json.format f).toList).map Json.number := by
      rw [toJson, if_pos hf, Json.reread?, Json.Number.reread?, if_pos hf]
    rw [hread]
    constructor
    · rintro ⟨j, hj, halike⟩
      obtain ⟨n, hn, rfl⟩ := Option.map_eq_some_iff.1 hj
      obtain ⟨g, rfl⟩ := Json.Numeral.read?_format hf hn
      cases halike with
      | float heq => exact ⟨hf, g, hn, heq⟩
    · rintro ⟨-, g, hn, heq⟩
      have halike : Alike (.float g) (.float f) := .float heq
      exact ⟨.number (.double g), by rw [hn]; rfl, halike⟩
  · -- The double was written as null.
    have hnull : toJson (.float f) = .null := if_neg hf
    rw [hnull]
    constructor
    · rintro ⟨_, ⟨⟩, halike⟩
      cases halike
    · exact fun h => absurd h.1 hf

theorem ofJson_dateField (s : String) : ofJson (.object [(dateField, .string s)]) =
    (Rfc3339.parse? s).elim (.object [(dateField, .string s)]) .date := by
  have hwrapped : wrappedDate? [(dateField, .string s)] = Rfc3339.parse? s := by
    rw [wrappedDate?, if_pos rfl, instant?]
  have hfields : ofJsonFields [(dateField, .string s)] = [(dateField, .string s)] := rfl
  rw [ofJson_object_eq, hwrapped, hfields]

/-- A date is kept if its text is read as the date. -/
theorem exists_reread_date {t : Instant} (ht : t.Regular) :
    (∃ j, (toJson (.date t)).reread? = some j ∧ Alike (ofJson j.merged) (.date t)) ↔
      WritableScalar (.date t) := by
  have hread {j : Json} : (toJson (.date t)).reread? = some j ↔
      .object [(dateField, .string (Rfc3339.text t))] = j := by
    rw [toJson]
    exact Option.some_inj
  have hmerged : Json.merged (.object [(dateField, .string (Rfc3339.text t))]) =
      .object [(dateField, .string (Rfc3339.text t))] := rfl
  rw [WritableScalar, ← Rfc3339.parse?_text_eq_self ht]
  constructor
  · rintro ⟨j, hj, halike⟩
    rw [← hread.1 hj, hmerged, ofJson_dateField] at halike
    cases hparse : Rfc3339.parse? (Rfc3339.text t) with
    | none =>
        rw [hparse] at halike
        cases halike
    | some t' =>
        rw [hparse] at halike
        cases halike
        rfl
  · intro hparse
    refine ⟨_, hread.2 rfl, ?_⟩
    rw [hmerged, ofJson_dateField, hparse]
    exact .date t

/-! ## Objects -/

/-- Reading does not change whether a value names an instant inside a `$date` field. -/
theorem instant?_reread {v : Value} {j : Json} (h : v.toJson.reread? = some j) :
    instant? j.merged = instant? v.toJson := by
  cases v with
  | int n =>
      rw [reread_int] at h
      cases h
      rfl
  | float f =>
      by_cases hf : Binary64.isFinite f = true
      · rw [toJson, if_pos hf, Json.reread?, Json.Number.reread?, if_pos hf] at h
        obtain ⟨n, hn, rfl⟩ := Option.map_eq_some_iff.1 h
        obtain ⟨g, rfl⟩ := Json.Numeral.read?_format hf hn
        rw [toJson, if_pos hf]
        rfl
      · rw [toJson, if_neg hf] at h ⊢
        cases h
        rfl
  | array items =>
      obtain ⟨read, -, rfl⟩ := Option.map_eq_some_iff.1 h
      rfl
  | object fields =>
      obtain ⟨read, -, rfl⟩ := Option.map_eq_some_iff.1 h
      rfl
  | _ =>
      cases h
      rfl

theorem wrappedDate?_reread {fields : List (String × Value)} {read : List (String × Json)}
    (h : rereadFields? (toJsonFields fields) = some read) :
    wrappedDate? (mergedFields read) = wrappedDate? (toJsonFields fields) := by
  match fields with
  | [] =>
      cases h
      rfl
  | [(k, v)] =>
      obtain ⟨j, _, hj, hend, rfl⟩ := Json.rereadFields?_cons.1 h
      cases hend
      change (if k = dateField then instant? j.merged else none) =
        if k = dateField then instant? v.toJson else none
      rw [instant?_reread hj]
  | (k, v) :: (l, w) :: rest =>
      -- The form of a date has one field only.
      obtain ⟨j, _, -, hmore, rfl⟩ := Json.rereadFields?_cons.1 h
      obtain ⟨j', more, -, -, rfl⟩ := Json.rereadFields?_cons.1 hmore
      rfl

/-! ## Values -/

mutual

/-- **A regular value is read back as an equal one iff it is writable.** -/
theorem exists_reread_iff : ∀ v : Value, v.Regular →
    ((∃ j, v.toJson.reread? = some j ∧ Alike (ofJson j.merged) v) ↔ v.Writable)
  | .null, _ => ⟨fun _ => trivial, fun _ => ⟨_, rfl, .null⟩⟩
  | .bool b, _ => ⟨fun _ => trivial, fun _ => ⟨_, rfl, .bool b⟩⟩
  | .string s, _ => ⟨fun _ => trivial, fun _ => ⟨_, rfl, .string s⟩⟩
  | .int n, _ => ⟨fun _ => trivial, fun _ => ⟨_, reread_int n, alike_int n (reread_int n)⟩⟩
  | .float f, _ => exists_reread_float f
  | .date _, h => exists_reread_date h
  | .array items, h => by
      refine Iff.trans ⟨?_, ?_⟩ (exists_rereadItems_iff items h)
      · rintro ⟨j, hj, halike⟩
        obtain ⟨read, hread, rfl⟩ := Option.map_eq_some_iff.1 hj
        cases halike with
        | array halike => exact ⟨read, hread, halike⟩
      · rintro ⟨read, hread, halike⟩
        exact ⟨_, Option.map_eq_some_iff.2 ⟨read, hread, rfl⟩, .array halike⟩
  | .object fields, h => by
      have hmerged {read : List (String × Json)}
          (hread : rereadFields? (toJsonFields fields) = some read) :
          ofJson (Json.merged (.object read)) = (wrappedDate? (toJsonFields fields)).elim
            (.object (ofJsonFields (mergedFields read))) .date := by
        have hkeys : (Fields.keys (mergedFields read)).Nodup := by
          rw [keys_mergedFields, keys_reread hread]
          exact h.1
        rw [Json.merged, Fields.ofEntries_of_nodup hkeys, ofJson_object_eq,
          wrappedDate?_reread hread]
      have hfields := exists_rereadFields_iff fields h.2
      constructor
      · rintro ⟨j, hj, halike⟩
        obtain ⟨read, hread, rfl⟩ := Option.map_eq_some_iff.1 hj
        rw [hmerged hread] at halike
        -- An object in the form of a date is read back as a date, which is no object.
        cases hwrapped : wrappedDate? (toJsonFields fields) with
        | some t =>
            rw [hwrapped] at halike
            cases halike
        | none =>
            rw [hwrapped] at halike
            cases halike with
            | object _ halike => exact ⟨hwrapped, hfields.1 ⟨read, hread, halike⟩⟩
      · rintro ⟨hnone, hwritable⟩
        obtain ⟨read, hread, halike⟩ := hfields.2 hwritable
        refine ⟨_, Option.map_eq_some_iff.2 ⟨read, hread, rfl⟩, ?_⟩
        have hnone : wrappedDate? (toJsonFields fields) = none := hnone
        rw [hmerged hread, hnone]
        exact .object (halike.keys_eq ▸ h.1) halike

theorem exists_rereadItems_iff : ∀ items : List Value, RegularItems items →
    ((∃ read, rereadItems? (toJsonItems items) = some read ∧
      AlikeItems (ofJsonItems (mergedItems read)) items) ↔ WritableItems items)
  | [], _ => ⟨fun _ => trivial, fun _ => ⟨[], rfl, .nil⟩⟩
  | v :: rest, h => by
      have hv := exists_reread_iff v h.1
      have hrest := exists_rereadItems_iff rest h.2
      constructor
      · rintro ⟨_, hread, halike⟩
        obtain ⟨j, more, hj, hmore, rfl⟩ := Json.rereadItems?_cons.1 hread
        cases halike with
        | cons head tail => exact ⟨hv.1 ⟨j, hj, head⟩, hrest.1 ⟨more, hmore, tail⟩⟩
      · rintro ⟨hhead, htail⟩
        obtain ⟨j, hj, head⟩ := hv.2 hhead
        obtain ⟨more, hmore, tail⟩ := hrest.2 htail
        exact ⟨j :: more, Json.rereadItems?_cons.2 ⟨j, more, hj, hmore, rfl⟩, .cons head tail⟩

theorem exists_rereadFields_iff : ∀ fields : List (String × Value), RegularFields fields →
    ((∃ read, rereadFields? (toJsonFields fields) = some read ∧
      AlikeFields (ofJsonFields (mergedFields read)) fields) ↔ WritableFields fields)
  | [], _ => ⟨fun _ => trivial, fun _ => ⟨[], rfl, .nil⟩⟩
  | (k, v) :: rest, h => by
      have hv := exists_reread_iff v h.1
      have hrest := exists_rereadFields_iff rest h.2
      constructor
      · rintro ⟨_, hread, halike⟩
        obtain ⟨j, more, hj, hmore, rfl⟩ := Json.rereadFields?_cons.1 hread
        cases halike with
        | cons _ head tail => exact ⟨hv.1 ⟨j, hj, head⟩, hrest.1 ⟨more, hmore, tail⟩⟩
      · rintro ⟨hhead, htail⟩
        obtain ⟨j, hj, head⟩ := hv.2 hhead
        obtain ⟨more, hmore, tail⟩ := hrest.2 htail
        exact ⟨(k, j) :: more, Json.rereadFields?_cons.2 ⟨j, more, hj, hmore, rfl⟩,
          .cons k head tail⟩

end

end DocStore.Value
