import DocStore.Proofs.Number.PlainText
import DocStore.Proofs.Text.KeyTree
import DocStore.Proofs.Value.Alike
import DocStore.Proofs.Value.Everywhere
import DocStore.Proofs.Value.Order
import DocStore.Value.Key

/-!
# Keys tell values apart

A key is the text of a tree (`render_keyTree`), so two values have one key iff they have one tree.
Trees agree iff the values are equal, as long as dates are whole milliseconds, no double is a NaN,
and an integer next to an equal double is one that doubles count exactly.
-/

set_option autoImplicit false

namespace DocStore.Value

open Binary64 (isNaN scaled equal_iff)

/-! ## Numbers -/

/-- The key of a double without its mark. -/
def floatText (f : Float) : String :=
  if Binary64.isIntegral f && (Binary64.truncate f).natAbs < wholeLimit.natAbs then
    toString (Binary64.truncate f)
  else Decimal.Layout.plain.format f

theorem floatKey_eq (f : Float) : floatKey f = "n:" ++ floatText f := by
  rw [floatKey, floatText]
  split <;> rfl

/-- A whole double that is written like an integer is the one that the integer is converted to. -/
theorem scaled_truncate {f : Float} (hwhole : Binary64.isIntegral f = true)
    (hlt : (Binary64.truncate f).natAbs < wholeLimit.natAbs) :
    scaled (Binary64.ofInt (Binary64.truncate f)) = scaled f :=
  Binary64.scaled_ofInt_truncate hwhole (hlt.trans (by decide))

theorem scaled_eq_of_toString {f : Float} {n : Int} (hf : isNaN f = false)
    (hn : n.natAbs < 2 ^ 64) (h : toString n = floatText f) :
    scaled (Binary64.ofInt n) = scaled f := by
  unfold floatText at h
  split at h
  · rename_i hwhole
    rw [Bool.and_eq_true, decide_eq_true_eq] at hwhole
    rw [Int.repr_inj.1 h, scaled_truncate hwhole.1 hwhole.2]
  · exact Decimal.scaled_eq_of_toString hf hn h

/-- **Doubles with one key are one number.** -/
theorem scaled_eq_of_floatText {f g : Float} (hf : isNaN f = false) (hg : isNaN g = false)
    (h : floatText f = floatText g) : scaled f = scaled g := by
  by_cases hwhole : Binary64.isIntegral f = true ∧
      (Binary64.truncate f).natAbs < wholeLimit.natAbs
  · have htext : toString (Binary64.truncate f) = floatText g := by
      rw [← h, floatText, if_pos (by simpa using hwhole)]
    rw [← scaled_truncate hwhole.1 hwhole.2]
    exact scaled_eq_of_toString hg (hwhole.2.trans (by decide)) htext
  · have hformat : floatText f = Decimal.Layout.plain.format f := by
      rw [floatText, if_neg (by simpa using hwhole)]
    rw [hformat] at h
    unfold floatText at h
    split at h
    · rename_i hwhole'
      rw [Bool.and_eq_true, decide_eq_true_eq] at hwhole'
      rw [← scaled_truncate hwhole'.1 hwhole'.2]
      exact (Decimal.scaled_eq_of_toString hf (hwhole'.2.trans (by decide)) h.symm).symm
    · exact Decimal.scaled_eq_of_format hf hg h

/-- **A whole double below 2^53 has the key of the integer.** -/
theorem floatText_of_scaled {f : Float} {n : Int} (hn : n.natAbs < 2 ^ 53)
    (h : scaled f = n * Binary64.unit) : floatText f = toString n := by
  have hofInt : scaled f = scaled (Binary64.ofInt n) := by rw [Binary64.scaled_ofInt_of_lt hn, h]
  have hfinite : Binary64.isFinite f = true := by
    rcases Binary64.eq_or_zero_of_scaled_eq hofInt with rfl | ⟨hzero, -⟩
    · exact Binary64.isFinite_ofInt (hn.trans (by decide))
    · rw [Binary64.isFinite, hzero]
      rfl
  have hwhole : Binary64.isIntegral f = true := by
    rw [Binary64.isIntegral, hfinite, h, Int.mul_emod_left]
    rfl
  have htruncate : Binary64.truncate f = n := by
    rw [Binary64.truncate, h, Int.mul_tdiv_cancel _ Binary64.unit_ne_zero]
  rw [floatText, hwhole, htruncate, Bool.true_and]
  split
  · rfl
  · -- Beyond the limit for whole doubles the decimal text is the integer's too.
    rename_i hlarge
    have hzero : n ≠ 0 := by
      rintro rfl
      exact hlarge (by decide)
    exact Decimal.format_of_scaled hzero hn h

/-! ## Words -/

theorem isWordChar_of_isNumeric {c : Char} (h : Json.Token.isNumeric c = true) :
    isWordChar c = true := by
  simp only [isWordChar, Bool.and_eq_true, bne_iff_ne]
  refine ⟨⟨⟨⟨⟨?_, ?_⟩, ?_⟩, ?_⟩, ?_⟩, ?_⟩ <;> rintro rfl <;> exact absurd h (by decide)

/-- A mark before a text of word characters makes a word. -/
theorem wordText_append {mark text : String} (hmark : WordText mark)
    (htext : ∀ c ∈ text.toList, isWordChar c = true) : WordText (mark ++ text) := by
  obtain ⟨hnonempty, hchars⟩ := hmark
  refine ⟨by simp [hnonempty], fun c hc => ?_⟩
  rw [String.toList_append, List.mem_append] at hc
  exact hc.elim (hchars c) (htext c)

theorem wordText_int {mark : String} (hmark : WordText mark) (n : Int) :
    WordText (mark ++ toString n) :=
  wordText_append hmark fun c hc => isWordChar_of_isNumeric (numeric_toString_int n c hc)

theorem isWordChar_of_mem_format {f : Float} :
    ∀ c ∈ (Decimal.Layout.plain.format f).toList, isWordChar c = true := by
  by_cases hf : isNaN f = true
  · rw [Decimal.Layout.format, if_pos hf]
    exact (by decide : WordText "NaN").2
  · rw [Decimal.format_plain (Bool.eq_false_iff.2 hf), signed]
    intro c hc
    rw [String.toList_append, List.mem_append] at hc
    rcases hc with hc | hc
    · cases hsign : Binary64.signBit f <;> rw [hsign] at hc
      · cases hc
      · exact (by decide : WordText "-").2 c hc
    · unfold Decimal.body at hc
      split at hc
      · exact isWordChar_of_isNumeric (Decimal.numeric_positionalText _ _ c hc)
      · exact (by decide : WordText "inf").2 c hc

theorem wordText_floatKey (f : Float) : WordText (floatKey f) := by
  rw [floatKey_eq, floatText]
  split
  · exact wordText_int (by decide) _
  · exact wordText_append (by decide) isWordChar_of_mem_format

theorem wordText_bool : ∀ b : Bool, WordText (if b then "true" else "false") := by decide

/-! ## Trees -/

mutual

/-- The tree of a value's key. -/
def keyTree : Value → KeyTree
  | null => .word ⟨"null", by decide⟩
  | bool b => .word ⟨if b then "true" else "false", wordText_bool b⟩
  | int n => .word ⟨"n:" ++ toString n.toInt, wordText_int (by decide) _⟩
  | float f => .word ⟨floatKey f, wordText_floatKey f⟩
  | string s => .string s
  | date t => .word ⟨"d:" ++ toString t.toMillis, wordText_int (by decide) _⟩
  | array items => .array (itemTrees items)
  | object fields => .object ((fieldTrees fields).mergeSort fun a b => a.1 ≤ b.1)

/-- The trees of the items of an array. -/
def itemTrees : List Value → List KeyTree
  | [] => []
  | v :: rest => keyTree v :: itemTrees rest

/-- The trees of the fields of an object, with their names. -/
def fieldTrees : List (String × Value) → List (String × KeyTree)
  | [] => []
  | (k, v) :: rest => (k, keyTree v) :: fieldTrees rest

end

/-- The text of a tree. -/
def treeText (t : KeyTree) : String := String.ofList t.render

mutual

/-- **A key is the text of a tree.** -/
theorem canonicalKey_eq : (v : Value) → canonicalKey v = treeText (keyTree v)
  | null => by rw [canonicalKey, keyTree, treeText, KeyTree.render, String.ofList_toList]
  | bool b => by rw [canonicalKey, keyTree, treeText, KeyTree.render, String.ofList_toList]
  | int n => by rw [canonicalKey, keyTree, treeText, KeyTree.render, String.ofList_toList]
  | float f => by rw [canonicalKey, keyTree, treeText, KeyTree.render, String.ofList_toList]
  | string s => by
    rw [canonicalKey, keyTree, treeText, KeyTree.render]
    apply String.toList_injective
    simp
  | date t => by rw [canonicalKey, keyTree, treeText, KeyTree.render, String.ofList_toList]
  | array items => by
    rw [canonicalKey, keyTree, treeText, KeyTree.render, itemKeys_eq items,
      KeyTree.renderItems_eq_map]
    apply String.toList_injective
    simp [Function.comp_def, treeText]
  | object fields => by
    -- Names are sorted, with trees or with texts beside them.
    have hsort : ((fieldTrees fields).mergeSort fun a b => a.1 ≤ b.1).map
        (fun e => (e.1, treeText e.2)) =
          (fieldKeys fields).mergeSort fun a b => a.1 ≤ b.1 := by
      rw [fieldKeys_eq fields]
      exact List.map_mergeSort fun _ _ _ _ => rfl
    rw [canonicalKey, keyTree, treeText, KeyTree.render, objectKey, ← hsort, List.map_map,
      KeyTree.renderFields_eq_map]
    have hentry : KeyTree.renderField = fun e => (Quoted.encode e.1).toList ++ ':' :: e.2.render :=
      rfl
    apply String.toList_injective
    simp [Function.comp_def, treeText, hentry]

theorem itemKeys_eq : (items : List Value) → itemKeys items = (itemTrees items).map treeText
  | [] => by rw [itemKeys, itemTrees, List.map_nil]
  | v :: rest => by rw [itemKeys, itemTrees, List.map_cons, canonicalKey_eq v, itemKeys_eq rest]

theorem fieldKeys_eq : (fields : List (String × Value)) →
    fieldKeys fields = (fieldTrees fields).map fun e => (e.1, treeText e.2)
  | [] => by rw [fieldKeys, fieldTrees, List.map_nil]
  | (k, v) :: rest => by
    rw [fieldKeys, fieldTrees, List.map_cons, canonicalKey_eq v, fieldKeys_eq rest]

end

theorem canonicalKey_eq_iff_keyTree {a b : Value} :
    canonicalKey a = canonicalKey b ↔ keyTree a = keyTree b := by
  rw [canonicalKey_eq, canonicalKey_eq]
  refine ⟨fun h => KeyTree.render_injective (String.ofList_injective h), fun h => by rw [h]⟩

/-! ## What keys tell apart -/

/-- A scalar whose key tells all about it: no NaN, and a date of whole milliseconds outside leap
seconds. -/
def KeyLeaf : Value → Prop
  | float f => isNaN f = false
  | date t => t.nanos < Instant.second ∧ t.nanos % 1000000 = 0
  | _ => True

/-- A value of such scalars in which no object has a name twice. -/
def Keyable : Value → Prop := Everywhere KeyLeaf fun fields => (Fields.keys fields).Nodup

/-- An integer among the first values is less than 2^53 if one of the second is an equal double. -/
def Exact (vs ws : List Value) : Prop :=
  ∀ n f, int n ∈ vs → float f ∈ ws → Binary64.equal (Binary64.ofInt64 n) f = true →
    n.toInt.natAbs < 2 ^ 53

theorem Exact.mono {vs vs' ws ws' : List Value} (h : Exact vs' ws') (hvs : vs ⊆ vs')
    (hws : ws ⊆ ws') : Exact vs ws :=
  fun n f hn hf => h n f (hvs hn) (hws hf)

theorem toMillis_inj {s t : Instant} (hs : s.nanos < Instant.second ∧ s.nanos % 1000000 = 0)
    (ht : t.nanos < Instant.second ∧ t.nanos % 1000000 = 0) (h : s.toMillis = t.toMillis) :
    s = t := by
  obtain ⟨sec, ns⟩ := s
  obtain ⟨sec', ns'⟩ := t
  simp only [Instant.toMillis, Instant.second] at hs ht h
  obtain rfl : sec = sec' := by omega
  obtain rfl : ns = ns' := by omega
  rfl

/-- An integer and a double have one key iff they are equal. -/
theorem int_float_iff {n : Int64} {f : Float} (hf : isNaN f = false)
    (hexact : Binary64.equal (Binary64.ofInt64 n) f = true → n.toInt.natAbs < 2 ^ 53) :
    "n:" ++ toString n.toInt = floatKey f ↔ Binary64.equal (Binary64.ofInt64 n) f = true := by
  rw [floatKey_eq, String.append_right_inj]
  constructor
  · intro h
    exact equal_iff.2 ⟨Binary64.isNaN_ofInt64 n, hf,
      scaled_eq_of_toString hf (Binary64.natAbs_toInt_lt n) h⟩
  · intro h
    have hlt := hexact h
    obtain ⟨-, -, hscaled⟩ := equal_iff.1 h
    rw [Binary64.ofInt64, Binary64.scaled_ofInt_of_lt hlt] at hscaled
    exact (floatText_of_scaled hlt hscaled.symm).symm

/-- Two doubles have one key iff they are equal. -/
theorem float_float_iff {f g : Float} (hf : isNaN f = false) (hg : isNaN g = false) :
    floatKey f = floatKey g ↔ Binary64.equal f g = true := by
  rw [floatKey_eq, floatKey_eq, String.append_right_inj]
  constructor
  · exact fun h => equal_iff.2 ⟨hf, hg, scaled_eq_of_floatText hf hg h⟩
  · intro h
    obtain ⟨-, -, hscaled⟩ := equal_iff.1 h
    rcases Binary64.eq_or_zero_of_scaled_eq hscaled with rfl | ⟨hzero, hzero'⟩
    · rfl
    · -- Both zeros have the key of the integer zero.
      have htext (e : Float) (he : Binary64.magnitude e = 0) : floatText e = toString (0 : Int) :=
        floatText_of_scaled (by decide) (by rw [Binary64.scaled_eq_zero.2 he, Int.zero_mul])
      rw [htext f hzero, htext g hzero']

/-- **Keys of scalars.** -/
theorem keyTree_scalar_iff {a b : Value} (hscalar : a.isContainer = false) (ha : Keyable a)
    (hb : Keyable b) (hab : Exact (leaves a) (leaves b)) (hba : Exact (leaves b) (leaves a)) :
    keyTree a = keyTree b ↔ equal a b = true := by
  cases a <;> cases b <;>
    simp only [keyTree, equal, equalNumbers, reduceCtorEq, KeyTree.word.injEq, Word.mk.injEq,
      KeyTree.string.injEq, beq_iff_eq]
  case bool.bool b c => cases b <;> cases c <;> decide
  case int.int m n =>
    rw [String.append_right_inj]
    exact Int.repr_inj.trans Int64.toInt_inj
  case date.date s t =>
    rw [String.append_right_inj]
    exact Int.repr_inj.trans ⟨toMillis_inj ha hb, fun h => by rw [h]⟩
  case int.float n f =>
    exact int_float_iff hb (hab n f (List.mem_singleton_self _) (List.mem_singleton_self _))
  case float.int f n =>
    have hexact := hba n f (List.mem_singleton_self _) (List.mem_singleton_self _)
    rw [eq_comm, int_float_iff ha hexact]
    exact ⟨Binary64.equal_symm, Binary64.equal_symm⟩
  case float.float f g => exact float_float_iff ha hb
  case array.array | object.object => cases hscalar
  -- Keys of different kinds differ in one of the first two characters.
  all_goals
    simp only [floatKey_eq, iff_false, ← String.toList_inj]
    first
    | split <;> simp
    | simp

/-! ## Fields -/

theorem fieldTrees_eq_map : ∀ fields : List (String × Value),
    fieldTrees fields = fields.map fun e => (e.1, keyTree e.2)
  | [] => by rw [fieldTrees, List.map_nil]
  | (k, v) :: rest => by rw [fieldTrees, List.map_cons, fieldTrees_eq_map rest]

/-- Fields with different names are sorted in one way. -/
theorem mergeSort_eq_iff_perm {α : Type} {as bs : List (String × α)}
    (has : (Fields.keys as).Nodup) :
    as.mergeSort (fun a b => a.1 ≤ b.1) = bs.mergeSort (fun a b => a.1 ≤ b.1) ↔ as.Perm bs := by
  constructor
  · intro h
    have hperm := List.mergeSort_perm as fun a b => a.1 ≤ b.1
    rw [h] at hperm
    exact hperm.symm.trans (List.mergeSort_perm bs _)
  · intro h
    have htrans (a b c : String × α) (hab : decide (a.1 ≤ b.1) = true)
        (hbc : decide (b.1 ≤ c.1) = true) : decide (a.1 ≤ c.1) = true :=
      decide_eq_true (le_trans (of_decide_eq_true hab) (of_decide_eq_true hbc))
    have htotal (a b : String × α) : (decide (a.1 ≤ b.1) || decide (b.1 ≤ a.1)) = true := by
      simpa using le_total a.1 b.1
    refine List.Perm.eq_of_pairwise (fun a b ha hb hab hba => ?_)
      (List.pairwise_mergeSort htrans htotal as) (List.pairwise_mergeSort htrans htotal bs)
      (((List.mergeSort_perm as _).trans h).trans (List.mergeSort_perm bs _).symm)
    -- Entries of one name are one entry.
    have hname : a.1 = b.1 := le_antisymm (of_decide_eq_true hab) (of_decide_eq_true hba)
    have hfound := Fields.get?_of_mem has (List.mem_mergeSort.1 ha)
    rw [hname, Fields.get?_of_mem has (h.symm.subset (List.mem_mergeSort.1 hb))] at hfound
    exact Prod.ext hname (Option.some.inj hfound).symm

/-- Fields are rearranged iff each is found again under its name. -/
theorem perm_fieldTrees_iff {as bs : List (String × Value)} (has : (Fields.keys as).Nodup)
    (hbs : (Fields.keys bs).Nodup) :
    (fieldTrees as).Perm (fieldTrees bs) ↔ as.length = bs.length ∧
      ∀ e ∈ as, ∃ w, Fields.get? bs e.1 = some w ∧ keyTree e.2 = keyTree w := by
  rw [fieldTrees_eq_map, fieldTrees_eq_map]
  constructor
  · intro h
    refine ⟨by simpa using h.length_eq, fun e he => ?_⟩
    obtain ⟨f, hf, heq⟩ := List.mem_map.1 (h.subset (List.mem_map_of_mem he))
    obtain ⟨hname, htree⟩ := Prod.ext_iff.1 heq
    exact ⟨f.2, Fields.get?_of_mem hbs (hname ▸ hf), htree.symm⟩
  · rintro ⟨hlength, hfound⟩
    -- Entries of different names that are all found again fill the other list.
    have hnodup : (as.map fun e => (e.1, keyTree e.2)).Nodup := by
      refine List.Nodup.of_map Prod.fst ?_
      rw [List.map_map]
      exact has
    have hsubset : (as.map fun e => (e.1, keyTree e.2)) ⊆ bs.map fun e => (e.1, keyTree e.2) := by
      intro t ht
      obtain ⟨e, he, rfl⟩ := List.mem_map.1 ht
      obtain ⟨w, hw, htree⟩ := hfound e he
      exact List.mem_map.2 ⟨(e.1, w), Fields.mem_of_get? hw, by rw [htree]⟩
    exact (List.subperm_of_subset hnodup hsubset).perm_of_length_le (by simp [hlength])

/-! ## Keys and equality -/

mutual

/-- **Trees agree iff the values are equal.** -/
theorem keyTree_eq_iff : (a b : Value) → Keyable a → Keyable b → Exact (leaves a) (leaves b) →
    Exact (leaves b) (leaves a) → (keyTree a = keyTree b ↔ equal a b = true)
  | array as, b, ha, hb, hab, hba => by
    cases b with
    | array bs =>
        rw [keyTree, keyTree, equal, KeyTree.array.injEq]
        exact itemTrees_eq_iff as bs ha hb hab hba
    | _ => simp [keyTree, equal, equalNumbers]
  | object as, b, ha, hb, hab, hba => by
    cases b with
    | object bs =>
        have hnames : (Fields.keys (fieldTrees as)).Nodup := by
          rw [fieldTrees_eq_map, Fields.keys, List.map_map]
          exact ha.1
        rw [keyTree, keyTree, equal, KeyTree.object.injEq, Bool.and_eq_true, beq_iff_eq,
          equalFields_iff, mergeSort_eq_iff_perm hnames, perm_fieldTrees_iff ha.1 hb.1]
        refine and_congr_right fun _ => forall₂_congr fun e he => exists_congr fun w =>
          and_congr_right fun hw => ?_
        have hmem := Fields.mem_of_get? hw
        exact fieldTree_eq_iff as e he w (everywhereFields_iff.1 ha.2 e he)
          (everywhereFields_iff.1 hb.2 _ hmem)
          (hab.mono (leaves_subset_fieldLeaves he) (leaves_subset_fieldLeaves hmem))
          (hba.mono (leaves_subset_fieldLeaves hmem) (leaves_subset_fieldLeaves he))
    | _ => simp [keyTree, equal, equalNumbers]
  | null, b, ha, hb, hab, hba => keyTree_scalar_iff rfl ha hb hab hba
  | bool _, b, ha, hb, hab, hba => keyTree_scalar_iff rfl ha hb hab hba
  | int _, b, ha, hb, hab, hba => keyTree_scalar_iff rfl ha hb hab hba
  | float _, b, ha, hb, hab, hba => keyTree_scalar_iff rfl ha hb hab hba
  | string _, b, ha, hb, hab, hba => keyTree_scalar_iff rfl ha hb hab hba
  | date _, b, ha, hb, hab, hba => keyTree_scalar_iff rfl ha hb hab hba

theorem itemTrees_eq_iff : (as bs : List Value) →
    EverywhereItems KeyLeaf (fun fields => (Fields.keys fields).Nodup) as →
    EverywhereItems KeyLeaf (fun fields => (Fields.keys fields).Nodup) bs →
    Exact (itemLeaves as) (itemLeaves bs) → Exact (itemLeaves bs) (itemLeaves as) →
    (itemTrees as = itemTrees bs ↔ equalItems as bs = true)
  | [], [], _, _, _, _ => by simp [equalItems]
  | [], _ :: _, _, _, _, _ => by simp [itemTrees, equalItems]
  | _ :: _, [], _, _, _, _ => by simp [itemTrees, equalItems]
  | a :: as, b :: bs, ha, hb, hab, hba => by
    rw [itemTrees, itemTrees, equalItems, List.cons.injEq, Bool.and_eq_true]
    rw [itemLeaves, itemLeaves] at hab hba
    refine and_congr (keyTree_eq_iff a b ha.1 hb.1 (hab.mono ?_ ?_) (hba.mono ?_ ?_))
      (itemTrees_eq_iff as bs ha.2 hb.2 (hab.mono ?_ ?_) (hba.mono ?_ ?_))
    all_goals
      first
      | exact List.subset_append_left _ _
      | exact List.subset_append_right _ _

theorem fieldTree_eq_iff : (fields : List (String × Value)) → ∀ e ∈ fields, ∀ b : Value,
    Keyable e.2 → Keyable b → Exact (leaves e.2) (leaves b) → Exact (leaves b) (leaves e.2) →
    (keyTree e.2 = keyTree b ↔ equal e.2 b = true)
  | [], _, he, _, _, _, _, _ => absurd he List.not_mem_nil
  | (k, v) :: rest, e, he, b, ha, hb, hab, hba => by
    rcases List.mem_cons.1 he with rfl | he
    · exact keyTree_eq_iff v b ha hb hab hba
    · exact fieldTree_eq_iff rest e he b ha hb hab hba

end

/-- **Keys agree iff the values are equal**, for values of numbers, no NaN and dates of whole
milliseconds, if doubles count the integers exactly that they are equal to. -/
theorem canonicalKey_eq_iff_equal (a b : Value) (ha : Keyable a) (hb : Keyable b)
    (hab : Exact (leaves a) (leaves b)) (hba : Exact (leaves b) (leaves a)) :
    canonicalKey a = canonicalKey b ↔ equal a b = true :=
  canonicalKey_eq_iff_keyTree.trans (keyTree_eq_iff a b ha hb hab hba)

theorem canonicalKey_eq_iff_equal_orders :
    let paid : Value := object [("total", int 2), ("at", date ⟨1740787200, 500000000⟩)]
    let also : Value := object [("at", date ⟨1740787200, 500000000⟩), ("total", float 2.0)]
    (Keyable paid ∧ Keyable also ∧ Exact (leaves paid) (leaves also) ∧
      Exact (leaves also) (leaves paid)) ∧ canonicalKey paid = canonicalKey also := by
  intro paid also
  have hpaid : Keyable paid := by
    refine ⟨by decide, trivial, ?_, trivial⟩
    exact ⟨by decide, by decide⟩
  have halso : Keyable also := by
    refine ⟨by decide, ?_, ?_, trivial⟩
    · exact ⟨by decide, by decide⟩
    · exact (by decide +kernel : isNaN 2.0 = false)
  have hpa : Exact (leaves paid) (leaves also) := by
    intro n f hn _ _
    simp only [paid, leaves, fieldLeaves, List.cons_append, List.nil_append, List.mem_cons,
      int.injEq, reduceCtorEq, List.not_mem_nil, or_false] at hn
    rw [hn]
    decide
  have hap : Exact (leaves also) (leaves paid) := by
    intro n f hn _ _
    simp [also, leaves, fieldLeaves] at hn
  refine ⟨⟨hpaid, halso, hpa, hap⟩, ?_⟩
  exact (canonicalKey_eq_iff_equal paid also hpaid halso hpa hap).2 (by decide +kernel)

/-- Dates of one millisecond have one key, and an integer that doubles do not count has another key
than the double that it equals. -/
theorem not_canonicalKey_eq_iff_equal :
    (canonicalKey (date ⟨1735689600, 100000⟩) = canonicalKey (date ⟨1735689600, 200000⟩) ∧
      equal (date ⟨1735689600, 100000⟩) (date ⟨1735689600, 200000⟩) = false) ∧
    (canonicalKey (int 9007199254740993) ≠ canonicalKey (float 9007199254740992.0) ∧
      equal (int 9007199254740993) (float 9007199254740992.0) = true) := by
  decide +kernel

end DocStore.Value
