import DocStore.Proofs.Except
import DocStore.Filter.Basic
import DocStore.Proofs.Value.Shuffled

/-!
# Filters and order

A filter does not see in which order the fields of a document stand, at any depth:
`Filter.holds_eq_of_shuffled`.

In the JSON of a filter, the keys of objects may stand in any order, and so may the items of the
lists that combinators, `$in` and `$nin` take: `Filter.Rearranged`, of which `Json.Shuffled` is a
case. The filter is accepted in every order or in none, and it means the same:
`Filter.isMatch_of_rearranged`.
-/

set_option autoImplicit false

namespace DocStore

section Documents

open Value (Shuffled)

/-! ## Conditions -/

namespace Condition

theorem forall₂_candidates {v w : Value} (h : Shuffled v w) :
    List.Forall₂ Shuffled (candidates v) (candidates w) := by
  refine .cons h ?_
  cases h with
  | refl => exact Value.forall₂_refl _
  | array h => exact h.forall₂
  | object => exact .nil

variable {ts ts' : List Value}

/-- A test that takes shuffled values for the same finds the same in shuffled values. -/
theorem anyCandidate_eq_of_shuffled {test : Value → Bool} (h : List.Forall₂ Shuffled ts ts')
    (htest : ∀ v w, Shuffled v w → test v = test w) :
    anyCandidate test ts = anyCandidate test ts' :=
  (upToOrder_of_forall₂ h).any_eq fun _ _ h =>
    (upToOrder_of_forall₂ (forall₂_candidates h)).any_eq htest

theorem anyCompared_eq_of_shuffled (accept : Ordering → Bool) (bound : Value)
    (h : List.Forall₂ Shuffled ts ts') :
    anyCompared accept bound ts = anyCompared accept bound ts' :=
  anyCandidate_eq_of_shuffled h fun _ _ h => by rw [h.compareSameClass?_left]

/-- **A condition holds of shuffled values alike.** -/
theorem holds_eq_of_shuffled (c : Condition) (h : List.Forall₂ Shuffled ts ts') :
    c.holds ts = c.holds ts' := by
  have hequal (v : Value) :
      anyCandidate (Value.equal · v) ts = anyCandidate (Value.equal · v) ts' :=
    anyCandidate_eq_of_shuffled h fun _ _ h => h.equal_left v
  have hcompare (accept : Ordering → Bool) (v : Value) :
      anyCompared accept v ts = anyCompared accept v ts' := anyCompared_eq_of_shuffled accept v h
  have hlisted (vs : List Value) : anyCandidate (fun v => vs.any (Value.equal · v)) ts =
      anyCandidate (fun v => vs.any (Value.equal · v)) ts' :=
    anyCandidate_eq_of_shuffled h fun _ _ h => by simp only [h.equal_right]
  have htext (p : Pattern) : anyCandidate (fun v => v.string?.any p.isMatch) ts =
      anyCandidate (fun v => v.string?.any p.isMatch) ts' :=
    anyCandidate_eq_of_shuffled h fun _ _ h => by rw [h.string?_eq]
  have hsize (n : Nat) : (ts.any fun v => v.array?.any (·.length == n)) =
      ts'.any fun v => v.array?.any (·.length == n) :=
    (upToOrder_of_forall₂ h).any_eq fun _ _ h => by
      cases h with
      | refl => rfl
      | array h => exact congrArg (· == n) h.forall₂.length_eq
      | object => rfl
  cases h with
  | nil => rfl
  | cons =>
      cases c with
      | eq v => exact hequal v
      | ne v => exact congrArg not (hequal v)
      | gt v => exact hcompare _ v
      | gte v => exact hcompare _ v
      | lt v => exact hcompare _ v
      | lte v => exact hcompare _ v
      | oneOf vs => exact hlisted vs
      | noneOf vs => exact congrArg not (hlisted vs)
      | present flag => rfl
      | regex p => exact htext p
      | size n => exact hsize n

end Condition

/-! ## Filters -/

namespace Filter

variable {m m' : Fields Value}

mutual

/-- **A filter holds of a document whose fields stand in another order alike.** -/
theorem holds_eq_of_shuffled (h : Shuffled (.object m) (.object m')) :
    ∀ f : Filter, f.holds m = f.holds m'
  | .and clauses => holdsAll_eq_of_shuffled h clauses
  | .or clauses => holdsAny_eq_of_shuffled h clauses
  | .nor clauses => congrArg not (holdsAny_eq_of_shuffled h clauses)
  | .field path c => c.holds_eq_of_shuffled (h.fieldTerminals path)

theorem holdsAll_eq_of_shuffled (h : Shuffled (.object m) (.object m')) :
    ∀ clauses : List Filter, holdsAll m clauses = holdsAll m' clauses
  | [] => rfl
  | f :: rest =>
      congrArg₂ (· && ·) (holds_eq_of_shuffled h f) (holdsAll_eq_of_shuffled h rest)

theorem holdsAny_eq_of_shuffled (h : Shuffled (.object m) (.object m')) :
    ∀ clauses : List Filter, holdsAny m clauses = holdsAny m' clauses
  | [] => rfl
  | f :: rest =>
      congrArg₂ (· || ·) (holds_eq_of_shuffled h f) (holdsAny_eq_of_shuffled h rest)

end

end Filter

end Documents

open Json (Shuffled ShuffledItems)

/-! ## Rearranged JSON -/

/-- The operand of an operator on a field, in another order. -/
inductive Condition.Rearranged (op : String) : Json → Json → Prop
  | value {a b : Json} (h : Shuffled a b) : Rearranged op a b
  | list {as bs cs : List Json} (hop : (membership? op).isSome) (h : ShuffledItems as bs)
      (hperm : bs.Perm cs) : Rearranged op (.array as) (.array cs)

namespace Filter

/-- The operand of a field in another order: a literal, or operators. -/
inductive RearrangedOperand : Json → Json → Prop
  | refl (j : Json) : RearrangedOperand j j
  | literal {a b : Json} (hliteral : ∀ ops, a = .object ops → isOperatorMap ops = false)
      (h : Shuffled a b) : RearrangedOperand a b
  | operators {as bs cs : List (String × Json)} (hops : isOperatorMap as = true)
      (hkeys : (Fields.keys as).Nodup) (h : Fields.Related Condition.Rearranged as bs)
      (hperm : bs.Perm cs) : RearrangedOperand (.object as) (.object cs)

mutual

/-- The JSON of a filter in another order. What is no object is no filter in any order. -/
inductive Rearranged : Json → Json → Prop
  | refl (j : Json) : Rearranged j j
  | array {as bs : List Json} (h : RearrangedItems as bs) : Rearranged (.array as) (.array bs)
  | object {as bs cs : List (String × Json)} (hkeys : (Fields.keys as).Nodup)
      (h : RearrangedFields as bs) (hperm : bs.Perm cs) : Rearranged (.object as) (.object cs)

/-- The fields of a filter with their operands in another order, themselves in the same one. -/
inductive RearrangedFields : List (String × Json) → List (String × Json) → Prop
  | nil : RearrangedFields [] []
  | cons (key : String) {a b : Json} {as bs : List (String × Json)}
      (head : RearrangedClause key a b) (tail : RearrangedFields as bs) :
      RearrangedFields ((key, a) :: as) ((key, b) :: bs)

/-- What stands under a key of a filter in another order: under a combinator a list of filters, or
one that is out of place, and otherwise the operand of a field. -/
inductive RearrangedClause : String → Json → Json → Prop
  | filters {key : String} {as bs cs : List Json} (hkey : (combinator? key).isSome)
      (h : RearrangedItems as bs) (hperm : bs.Perm cs) :
      RearrangedClause key (.array as) (.array cs)
  | filter {key : String} {a b : Json} (hkey : (combinator? key).isSome) (h : Rearranged a b) :
      RearrangedClause key a b
  | operand {key : String} {a b : Json} (hkey : combinator? key = none)
      (h : RearrangedOperand a b) : RearrangedClause key a b

/-- Filters in another order, themselves in the same one. -/
inductive RearrangedItems : List Json → List Json → Prop
  | nil : RearrangedItems [] []
  | cons {a b : Json} {as bs : List Json} (head : Rearranged a b) (tail : RearrangedItems as bs) :
      RearrangedItems (a :: as) (b :: bs)

end

variable {a b : Json}

theorem rearrangedOperand_of_shuffled (h : Shuffled a b) : RearrangedOperand a b := by
  by_cases hops : ∃ ops, a = .object ops ∧ isOperatorMap ops = true
  · obtain ⟨as, rfl, hops⟩ := hops
    cases h with
    | refl => exact .refl _
    | object hkeys h hperm =>
        exact .operators hops hkeys (h.related.mono fun _ _ _ h => .value h) hperm
  · refine .literal (fun ops hobject => ?_) h
    exact Bool.eq_false_iff.2 fun hmap => hops ⟨ops, hobject, hmap⟩

theorem rearrangedClause_of_shuffled (key : String) (h : Shuffled a b) (hfilter : Rearranged a b) :
    RearrangedClause key a b := by
  cases hkey : combinator? key with
  | none => exact .operand hkey (rearrangedOperand_of_shuffled h)
  | some combine => exact .filter (by rw [hkey]; rfl) hfilter

mutual

/-- Where only the fields of objects change places, any JSON is rearranged. -/
theorem rearranged_of_shuffled : ∀ {a b : Json}, Shuffled a b → Rearranged a b
  | _, _, .refl j => .refl j
  | _, _, .array h => .array (rearrangedItems_of_shuffled h)
  | _, _, .object hkeys h hperm => .object hkeys (rearrangedFields_of_shuffled h) hperm

theorem rearrangedFields_of_shuffled : ∀ {as bs : List (String × Json)},
    Json.ShuffledFields as bs → RearrangedFields as bs
  | _, _, .nil => .nil
  | _, _, .cons k head tail =>
      .cons k (rearrangedClause_of_shuffled k head (rearranged_of_shuffled head))
        (rearrangedFields_of_shuffled tail)

theorem rearrangedItems_of_shuffled : ∀ {as bs : List Json}, ShuffledItems as bs →
    RearrangedItems as bs
  | _, _, .nil => .nil
  | _, _, .cons head tail => .cons (rearranged_of_shuffled head) (rearrangedItems_of_shuffled tail)

end

end Filter

/-! ## Conditions -/

namespace Condition

/-- Conditions that hold together of the same values. -/
def SameAll (cs ds : List Condition) : Prop :=
  ∀ ts, (cs.all fun c => c.holds ts) = ds.all fun d => d.holds ts

theorem comparison_same {op : String} {make : Value → Condition} (h : comparison? op = some make)
    {v w : Value} (hvw : Value.Shuffled v w) : SameAll [make v] [make w] := by
  have hholds : ∀ ts, (make v).holds ts = (make w).holds ts := by
    intro ts
    unfold comparison? at h
    cases ts with
    | nil => split at h <;> cases h <;> rfl
    | cons t ts =>
        split at h <;> cases h <;>
          simp only [holds, anyCompared, hvw.equal_right, hvw.compareSameClass?_right]
  intro ts
  simp only [List.all_cons, hholds]

theorem membership_same {op : String} {make : List Value → Condition}
    (h : membership? op = some make) {vs ws : List Value} (hvw : UpToOrder Value.Shuffled vs ws) :
    SameAll [make vs] [make ws] := by
  have hany (u : Value) : vs.any (Value.equal · u) = ws.any (Value.equal · u) :=
    hvw.any_eq fun _ _ h => h.equal_left u
  have hholds : ∀ ts, (make vs).holds ts = (make ws).holds ts := by
    intro ts
    unfold membership? at h
    cases ts with
    | nil => split at h <;> cases h <;> rfl
    | cons t ts => split at h <;> cases h <;> simp only [holds, hany]
  intro ts
  simp only [List.all_cons, hholds]

variable {op : String} {a b : Json} {as bs cs : List (String × Json)}

theorem Rearranged.string?_eq (h : Rearranged op a b) : a.string? = b.string? := by
  cases h with
  | value h => exact h.string?_eq
  | list => rfl

theorem comparison?_eq_none {make : List Value → Condition} (h : membership? op = some make) :
    comparison? op = none := by
  unfold membership? at h
  split at h
  · rfl
  · rfl
  · cases h

/-- Where an operator takes no list, only the fields of objects change places. -/
theorem Rearranged.shuffled (h : Rearranged op a b) (hop : membership? op = none) :
    Shuffled a b := by
  cases h with
  | value h => exact h
  | list hsome => simp [hop] at hsome

theorem Rearranged.agree_items (h : Rearranged op a b) (e : Error) :
    Agree (fun as bs => UpToOrder Value.Shuffled (Value.ofJsonItems as) (Value.ofJsonItems bs))
      (Reading.require a.array? e : Result _) (Reading.require b.array? e : Result _) := by
  cases h with
  | value h =>
      cases h with
      | refl =>
          refine agree_refl (fun items => ?_) _
          exact upToOrder_of_forall₂ (Value.forall₂_refl _)
      | array h =>
          exact .ok (upToOrder_of_forall₂ (Value.shuffledItems_ofJsonItems h).forall₂)
      | object => exact .error _ _
  | list hop h hperm =>
      refine .ok ⟨_, (Value.shuffledItems_ofJsonItems h).forall₂, ?_⟩
      rw [Value.ofJsonItems_eq_map, Value.ofJsonItems_eq_map]
      exact hperm.map _

theorem flag?_eq_of_shuffled (h : Shuffled a b) : flag? a = flag? b := by
  cases h <;> rfl

/-- Operators that give the same options to a pattern. -/
def SameOptions (ops ops' : Fields Json) : Prop :=
  Option.Rel (Rearranged "$options") (Fields.get? ops "$options") (Fields.get? ops' "$options")

/-- The pattern of `$regex` is made of the texts of its operand and its options. -/
theorem readRegex_congr (field : String) {ops ops' : Fields Json} (h : a.string? = b.string?)
    (hoptions : SameOptions ops ops') :
    (readRegex field ops a : Result Condition) = readRegex field ops' b := by
  unfold SameOptions at hoptions
  unfold readRegex
  rw [h]
  generalize Fields.get? ops "$options" = x at hoptions ⊢
  generalize Fields.get? ops' "$options" = y at hoptions ⊢
  cases hoptions with
  | none => rfl
  | some h =>
      dsimp only
      rw [h.string?_eq]

/-- What operators stand for, which may be nothing, holds of the same values. -/
def SameOptional (c d : Option Condition) : Prop := SameAll c.toList d.toList

/-- **An operator is read alike**, whatever the order. -/
theorem Rearranged.agree_readOperator (h : Rearranged op a b) (field : String)
    {ops ops' : Fields Json} (hoptions : SameOptions ops ops') :
    Agree SameOptional
      (readOperator field ops op a : Result _) (readOperator field ops' op b : Result _) := by
  cases hmember : membership? op with
  | some make =>
      unfold readOperator
      rw [comparison?_eq_none hmember, hmember]
      exact (h.agree_items _).bind fun _ _ hvw => .ok (membership_same hmember hvw)
  | none =>
      have hshuffled := h.shuffled hmember
      unfold readOperator
      rw [hmember]
      cases hcompare : comparison? op with
      | some make => exact .ok (comparison_same hcompare (Value.shuffled_ofJson hshuffled))
      | none =>
          dsimp only
          rw [flag?_eq_of_shuffled hshuffled, hshuffled.toUInt64?_eq,
            readRegex_congr field h.string?_eq hoptions]
          exact agree_refl (fun _ _ => rfl) _

section Operators

variable (hkeys : (Fields.keys as).Nodup) (h : Fields.Related Rearranged as bs)
  (hperm : bs.Perm cs)

include hkeys h hperm

theorem agree_readOperator_of_rearranged (field : String) :
    List.Forall₂ (fun e f => Agree SameOptional (readOperator field as e.1 e.2 : Result _)
      (readOperator field cs f.1 f.2 : Result _)) as bs := by
  have hoptions : SameOptions as cs := h.get?_of_perm hkeys hperm "$options"
  refine h.imp fun e f hef => ?_
  obtain ⟨op, a⟩ := e
  obtain ⟨op', b⟩ := f
  obtain ⟨rfl, hab⟩ : op = op' ∧ Rearranged op a b := hef
  exact hab.agree_readOperator field hoptions

/-- **The operators of a field are read alike.** -/
theorem agree_readOperators (field : String) :
    Agree SameAll (readOperators field as : Result _) (readOperators field cs : Result _) := by
  have hnames := h.keys_perm hperm
  have heach : Agree SameAll (readEach field as as : Result _)
      (readEach field cs cs : Result _) := by
    rw [readEach_eq, readEach_eq]
    have hread := agree_readOperator_of_rearranged hkeys h hperm field
    refine (agree_mapM_upToOrder hread hperm).map fun _ _ h ts => ?_
    rw [List.all_flatMap, List.all_flatMap]
    exact h.all_eq fun _ _ h => h ts
  refine heach.bind fun _ _ hsame => ?_
  rw [Fields.contains_eq_of_keys hnames, Fields.contains_eq_of_keys hnames]
  split
  · exact .error _ _
  · exact .ok hsame

end Operators

end Condition

/-! ## Operands of fields -/

namespace Filter

variable {a b : Json} {as bs cs : List (String × Json)}

/-- A test of the keys does not see their order. -/
theorem any_key_eq {ops ops' : Fields Json} (h : (Fields.keys ops).Perm (Fields.keys ops'))
    (p : String → Bool) : (ops.any fun e => p e.1) = ops'.any fun e => p e.1 := by
  have hkeys (m : Fields Json) : (m.any fun e => p e.1) = (Fields.keys m).any p :=
    List.any_map.symm
  rw [hkeys, hkeys, h.any_eq]

/-- Whether an operand holds operators is a matter of its keys, in whatever order. -/
theorem isOperatorMap_eq_of_keys {ops ops' : Fields Json}
    (h : (Fields.keys ops).Perm (Fields.keys ops')) : isOperatorMap ops = isOperatorMap ops' := by
  have hlength : ops.length = ops'.length := by
    simpa [Fields.keys] using h.length_eq
  rw [isOperatorMap, isOperatorMap, any_key_eq h, hlength, Fields.contains_eq_of_keys h]

/-- Filters that hold together of the same objects. -/
def SameAll (fs gs : List Filter) : Prop := ∀ m, holdsAll m fs = holdsAll m gs

theorem sameAll_map_field {cs ds : List Condition} (h : Condition.SameAll cs ds) (path : String) :
    SameAll (cs.map (field path)) (ds.map (field path)) := by
  intro m
  rw [holdsAll_map_field, holdsAll_map_field, h]

/-- What holds no operators is read as a literal. -/
theorem readField_literal {path : String} {operand : Json} (hpath : Segments.isPath path = true)
    (hliteral : ∀ ops, operand = .object ops → isOperatorMap ops = false) :
    (readField path operand : Result _) = .ok [field path (.eq (Value.ofJson operand))] := by
  unfold readField
  rw [if_pos hpath]
  split
  · rename_i ops
    rw [hliteral ops rfl]
    rfl
  · rfl

/-- **The operand of a field is read alike**: as a literal, as operators, or not at all. -/
theorem RearrangedOperand.agree_readField (h : RearrangedOperand a b) (path : String) :
    Agree SameAll (readField path a : Result _) (readField path b : Result _) := by
  by_cases hpath : Segments.isPath path = true
  · cases h with
    | refl => exact agree_refl (fun _ _ => rfl) _
    | literal hliteral h =>
        have hliteral' : ∀ ops, b = .object ops → isOperatorMap ops = false := by
          rintro cs rfl
          obtain ⟨as, rfl⟩ := h.exists_object
          rw [← isOperatorMap_eq_of_keys h.keys_perm]
          exact hliteral as rfl
        rw [readField_literal hpath hliteral, readField_literal hpath hliteral']
        have heq : Condition.comparison? "$eq" = some .eq := rfl
        exact .ok (sameAll_map_field (Condition.comparison_same heq (Value.shuffled_ofJson h)) path)
    | @operators as _ cs hops hkeys h hperm =>
        have hnames := h.keys_perm hperm
        have hmixed : (as.find? fun e => !Segments.isOperator e.1).isSome =
            (cs.find? fun e => !Segments.isOperator e.1).isSome := by
          rw [Bool.eq_iff_iff, List.find?_isSome, List.find?_isSome, ← List.any_eq_true,
            ← List.any_eq_true, any_key_eq hnames fun k => !Segments.isOperator k]
        unfold readField
        rw [if_pos hpath, if_pos hpath]
        dsimp only
        rw [if_pos hops, if_pos ((isOperatorMap_eq_of_keys hnames).symm.trans hops)]
        generalize List.find? _ _ = x at hmixed ⊢
        generalize List.find? _ _ = y at hmixed ⊢
        cases x with
        | none =>
            cases y with
            | none =>
                exact (Condition.agree_readOperators hkeys h hperm path).bind fun _ _ hsame =>
                  .ok (sameAll_map_field hsame path)
            | some => cases hmixed
        | some =>
            cases y with
            | none => cases hmixed
            | some => exact .error _ _
  · unfold readField
    rw [if_neg hpath, if_neg hpath]
    exact .error _ _

/-! ## Filters -/

/-- Filters that hold of the same objects. -/
def Same (f g : Filter) : Prop := ∀ m, f.holds m = g.holds m

theorem combinator_same {key : String} {combine : List Filter → Filter}
    (h : combinator? key = some combine) {fs gs : List Filter} (hsame : UpToOrder Same fs gs) :
    SameAll [combine fs] [combine gs] := by
  intro m
  have hall : holdsAll m fs = holdsAll m gs := by
    rw [holdsAll_eq_all, holdsAll_eq_all, hsame.all_eq fun _ _ h => h m]
  have hany : holdsAny m fs = holdsAny m gs := by
    rw [holdsAny_eq_any, holdsAny_eq_any, hsame.any_eq fun _ _ h => h m]
  unfold combinator? at h
  split at h <;> cases h <;> simp only [holdsAll, holds, hall, hany]

/-- A list of filters that are read alike, whatever their order, is read alike. -/
theorem agree_readClause_array {key : String} {as bs cs : List Json}
    (hkey : (combinator? key).isSome)
    (h : List.Forall₂ (fun a b => Agree Same (read a : Result _) (read b : Result _)) as bs)
    (hperm : bs.Perm cs) :
    Agree SameAll (readClause key (.array as) : Result _)
      (readClause key (.array cs) : Result _) := by
  obtain ⟨combine, hcombine⟩ := Option.isSome_iff_exists.1 hkey
  have hlength := h.length_eq.trans hperm.length_eq
  unfold readClause
  rw [hcombine]
  cases as with
  | nil =>
      cases cs with
      | nil => exact .error _ _
      | cons => cases hlength
  | cons =>
      cases cs with
      | nil => cases hlength
      | cons =>
          dsimp only
          rw [readItems_eq, readItems_eq]
          exact (agree_mapM_upToOrder h hperm).bind fun _ _ hsame =>
            .ok (combinator_same hcombine hsame)

mutual

/-- **A filter is read alike**, whatever the order. -/
theorem Rearranged.agree_read : ∀ {a b : Json}, Rearranged a b →
    Agree Same (read a : Result _) (read b : Result _)
  | _, _, .refl j => agree_refl (fun _ _ => rfl) (read j)
  | .array as, .array bs, .array _ => .error _ _
  | .object as, .object cs, .object hkeys h hperm => by
      have hfields : Agree SameAll (readFields as : Result _) (readFields cs : Result _) := by
        rw [readFields_eq, readFields_eq]
        refine (agree_mapM_upToOrder h.agree_readClause hperm).map fun _ _ h m => ?_
        rw [holdsAll_flatten, holdsAll_flatten, h.all_eq fun _ _ h => h m]
      rw [read, read]
      refine hfields.bind fun _ _ h => .ok fun m => ?_
      rw [holds_conjunction, holds_conjunction, h]

theorem RearrangedFields.agree_readClause : ∀ {as bs : List (String × Json)},
    RearrangedFields as bs → List.Forall₂ (fun e f =>
      Agree SameAll (readClause e.1 e.2 : Result _) (readClause f.1 f.2 : Result _)) as bs
  | _, _, .nil => .nil
  | _, _, .cons _ head tail => .cons head.agree_readClause tail.agree_readClause

theorem RearrangedClause.agree_readClause : ∀ {key : String} {a b : Json},
    RearrangedClause key a b →
      Agree SameAll (readClause key a : Result _) (readClause key b : Result _)
  | _, _, _, .filters hkey h hperm => agree_readClause_array hkey h.agree_read hperm
  | key, _, _, .filter _ (.refl j) => agree_refl (fun _ _ => rfl) (readClause key j)
  | _, _, _, .filter hkey (.array h) => agree_readClause_array hkey h.agree_read (.refl _)
  | key, .object as, .object cs, .filter hkey (.object _ _ _) => by
      obtain ⟨combine, hcombine⟩ := Option.isSome_iff_exists.1 hkey
      unfold readClause
      rw [hcombine]
      exact .error _ _
  | key, a, b, .operand hkey h => by
      unfold readClause
      rw [hkey]
      dsimp only
      split
      · exact .error _ _
      · exact h.agree_readField key

theorem RearrangedItems.agree_read : ∀ {as bs : List Json}, RearrangedItems as bs →
    List.Forall₂ (fun a b => Agree Same (read a : Result _) (read b : Result _)) as bs
  | _, _, .nil => .nil
  | _, _, .cons head tail => .cons head.agree_read tail.agree_read

end

/-- **Reordering changes nothing.** A filter whose keys, and whose lists of filters and of values to
look for, stand in another order is accepted if it was, and a document whose fields stand in another
order passes it if the document passed the one before. -/
theorem isMatch_of_rearranged {a b : Json} {m m' : Fields Value} (h : Rearranged a b)
    (hm : Value.Shuffled (.object m) (.object m')) :
    ((∃ f, ofJson a = .ok f) ↔ ∃ g, ofJson b = .ok g) ∧
      ∀ f g, ofJson a = .ok f → ofJson b = .ok g →
        g.isMatch (.object m') = f.isMatch (.object m) := by
  refine ⟨h.agree_read.ok_iff, fun f g hf hg => ?_⟩
  have hsame : Same f g := h.agree_read.rel hf hg
  calc
    g.isMatch (.object m') = g.holds m' := by rw [isMatch]
    _ = g.holds m := (holds_eq_of_shuffled hm g).symm
    _ = f.holds m := (hsame m).symm
    _ = f.isMatch (.object m) := by rw [isMatch]

theorem isMatch_of_rearranged_rex :
    ∃ f g, ofJson (.object [
        ("name", .object [("$ne", .null), ("$in", .array [.string "Max", .string "Rex"])]),
        ("$or", .array [.object [("age", .ofInt 3)],
          .object [("at", .object [("x", .ofInt 1), ("y", .ofInt 2)])]])]) = .ok f ∧
      ofJson (.object [
        ("$or", .array [.object [("at", .object [("y", .ofInt 2), ("x", .ofInt 1)])],
          .object [("age", .ofInt 3)]]),
        ("name", .object [("$in", .array [.string "Rex", .string "Max"]), ("$ne", .null)])]) =
          .ok g ∧
      f.isMatch (.object [("name", .string "Rex"),
        ("at", .object [("x", .int 1), ("y", .int 2)])]) = true ∧
      g.isMatch (.object [("at", .object [("y", .int 2), ("x", .int 1)]),
        ("name", .string "Rex")]) = true := by
  have hlisted : Condition.Rearranged "$in" (.array [.string "Max", .string "Rex"])
      (.array [.string "Rex", .string "Max"]) :=
    .list rfl (.cons (.refl _) (.cons (.refl _) .nil)) (.swap _ _ [])
  have hname : RearrangedClause "name"
      (.object [("$ne", .null), ("$in", .array [.string "Max", .string "Rex"])])
      (.object [("$in", .array [.string "Rex", .string "Max"]), ("$ne", .null)]) :=
    .operand rfl (.operators (by decide) (by decide)
      (.cons "$ne" (.value (.refl _)) (.cons "$in" hlisted .nil)) (.swap _ _ []))
  have hat : Rearranged (.object [("at", .object [("x", .ofInt 1), ("y", .ofInt 2)])])
      (.object [("at", .object [("y", .ofInt 2), ("x", .ofInt 1)])]) := by
    refine rearranged_of_shuffled (.object (by decide) (.cons "at" ?_ .nil) (.refl _))
    exact .object (by decide) (.cons "x" (.refl _) (.cons "y" (.refl _) .nil)) (.swap _ _ [])
  have hor : RearrangedClause "$or" (.array [.object [("age", .ofInt 3)],
        .object [("at", .object [("x", .ofInt 1), ("y", .ofInt 2)])]])
      (.array [.object [("at", .object [("y", .ofInt 2), ("x", .ofInt 1)])],
        .object [("age", .ofInt 3)]]) :=
    .filters rfl (.cons (.refl _) (.cons hat .nil)) (.swap _ _ [])
  have hdocument : Value.Shuffled
      (.object [("name", .string "Rex"), ("at", .object [("x", .int 1), ("y", .int 2)])])
      (.object [("at", .object [("y", .int 2), ("x", .int 1)]), ("name", .string "Rex")]) := by
    refine .object (by decide) (.cons "name" (.refl _) (.cons "at" ?_ .nil)) (.swap _ _ [])
    exact .object (by decide) (.cons "x" (.refl _) (.cons "y" (.refl _) .nil)) (.swap _ _ [])
  obtain ⟨-, hmatch⟩ := isMatch_of_rearranged
    (.object (by decide) (.cons "name" hname (.cons "$or" hor .nil)) (.swap _ _ [])) hdocument
  exact ⟨_, _, rfl, rfl, rfl, (hmatch _ _ rfl rfl).trans rfl⟩

end Filter

end DocStore
