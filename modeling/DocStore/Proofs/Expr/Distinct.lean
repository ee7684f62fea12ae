import DocStore.Expr.Eval
import DocStore.Proofs.Number.Exact
import DocStore.Proofs.Reading
import DocStore.Proofs.Value.Regular

/-!
# Names in what expressions give

An expression `KeepsDistinct` if, on documents in which no object has two fields of one name, it
gives values of this kind only. The property is closed under the ways of building expressions, so
that every expression which is read from JSON of this kind has it: `Expr.gives_read`.
-/

set_option autoImplicit false

namespace DocStore

/-! ## Operators -/

/-- If a value comes out, no object in it has two fields of one name. -/
def ComesDistinct (r : Result (Option Value)) : Prop := ∀ v, r = .ok (some v) → v.Distinct

theorem comesDistinct_ok {v : Value} (h : v.Distinct) : ComesDistinct (.ok (some v)) := by
  rintro _ ⟨⟩
  exact h

theorem ComesDistinct.bind {α : Type} {x : Result α} {f : α → Result (Option Value)}
    (h : ∀ a, x = .ok a → ComesDistinct (f a)) : ComesDistinct (x >>= f) := by
  intro v hv
  obtain ⟨a, ha, hv⟩ := bind_eq_ok.1 hv
  exact h a ha v hv

theorem ComesDistinct.getD {r : Result (Option Value)} (h : ComesDistinct r) {v : Option Value}
    (hv : r = .ok v) : (v.getD .null).Distinct := by
  cases v with
  | none => trivial
  | some w => exact h w hv

namespace Operators

variable {v : Value}

theorem distinct_of_number (h : (∃ n, v = .int n) ∨ ∃ f, v = .float f) : v.Distinct := by
  obtain ⟨n, rfl⟩ | ⟨f, rfl⟩ := h
  · trivial
  · trivial

theorem distinct_fold {op : Arithmetic} {values : List Value} (h : fold op values = .ok v) :
    v.Distinct := by
  obtain ⟨-, -, h⟩ := bind_eq_ok.1 h
  split at h
  · cases h
    trivial
  · cases h
    exact distinct_of_number (op.foldl_apply_cases values)

theorem distinct_shift {t : Instant} {ms : Int} (h : shift t ms = .ok v) : v.Distinct := by
  unfold shift at h
  split at h
  · cases h
    trivial
  · cases h

theorem distinct_sum {values : List Value} (h : sum values = .ok v) : v.Distinct := by
  unfold sum at h
  split at h
  · exact distinct_fold h
  · obtain ⟨ms, -, h⟩ := bind_eq_ok.1 h
    split at h
    · cases h
      trivial
    · exact distinct_shift h

theorem distinct_difference {a b : Value} (h : difference a b = .ok v) : v.Distinct := by
  unfold difference at h
  split at h
  · cases h
    trivial
  · exact distinct_shift h
  · obtain ⟨_, -, h⟩ := bind_eq_ok.1 h
    exact distinct_shift h
  · cases h
    trivial
  · obtain ⟨-, -, h⟩ := bind_eq_ok.1 h
    obtain ⟨-, -, h⟩ := bind_eq_ok.1 h
    split at h
    · cases h
      trivial
    · cases h
      exact distinct_of_number (Arithmetic.subtract.apply_cases a b)

theorem distinct_quotient {a b : Value} (h : quotient a b = .ok v) : v.Distinct := by
  obtain ⟨-, -, h⟩ := bind_eq_ok.1 h
  obtain ⟨-, -, h⟩ := bind_eq_ok.1 h
  split at h
  · split at h
    · cases h
    · cases h
      trivial
  · cases h
    trivial

theorem distinct_isMatch {p : Pattern} {input : Value} (h : isMatch p input = .ok v) :
    v.Distinct := by
  unfold isMatch at h
  split at h
  · cases h
    trivial
  · cases h
    trivial
  · cases h

theorem distinct_dateText {format : DateFormat} {date : Value} (h : dateText format date = .ok v) :
    v.Distinct := by
  unfold dateText at h
  split at h
  · cases h
    trivial
  · cases h
    trivial
  · cases h

theorem mem_of_mem_takeItems {α : Type} {all : List α} {count : Int} {a : α}
    (h : a ∈ takeItems all count) : a ∈ all := by
  unfold takeItems at h
  split at h
  · exact List.mem_of_mem_take h
  · exact List.mem_of_mem_drop h

theorem distinct_of_items {array : Value} {all : List Value} (harray : array.Distinct)
    (h : items array = .ok all) : ∀ w ∈ all, w.Distinct := by
  unfold items at h
  split at h
  · cases h
    exact Value.everywhereItems_iff.1 harray
  · cases h

theorem distinct_take {array count : Value} (harray : array.Distinct)
    (h : take array count = .ok v) : v.Distinct := by
  unfold take at h
  split at h
  · cases h
    trivial
  · obtain ⟨all, hall, h⟩ := bind_eq_ok.1 h
    obtain ⟨_, -, h⟩ := bind_eq_ok.1 h
    cases h
    exact Value.everywhereItems_iff.2 fun w hw =>
      distinct_of_items harray hall w (mem_of_mem_takeItems hw)

theorem distinct_slice {array position count : Value} (harray : array.Distinct)
    (h : slice array position count = .ok v) : v.Distinct := by
  unfold slice at h
  split at h
  · cases h
    trivial
  · obtain ⟨all, hall, h⟩ := bind_eq_ok.1 h
    obtain ⟨_, -, h⟩ := bind_eq_ok.1 h
    obtain ⟨_, -, h⟩ := bind_eq_ok.1 h
    split at h
    · cases h
    · cases h
      exact Value.everywhereItems_iff.2 fun w hw =>
        distinct_of_items harray hall w (List.mem_of_mem_drop (List.mem_of_mem_take hw))

end Operators

/-! ## Evaluation -/

namespace Expr

/-- On documents in which no object has two fields of one name, the expression gives such values
only. -/
def KeepsDistinct (e : Expr) : Prop := ∀ doc : Value, doc.Distinct → ComesDistinct (e.eval? doc)

variable {doc : Value} {a b c e : Expr} {args : List Expr}

theorem distinct_evalFields (hdoc : doc.Distinct) {fields : List (String × Expr)}
    (hfields : ∀ f ∈ fields, f.2.KeepsDistinct) {before m : Fields Value}
    (hbefore : (Value.object before).Distinct) (h : evalFields doc before fields = .ok m) :
    (Value.object m).Distinct := by
  induction fields generalizing before with
  | nil =>
      cases h
      exact hbefore
  | cons f rest ih =>
      obtain ⟨name, e⟩ := f
      obtain ⟨he, hrest⟩ := List.forall_mem_cons.1 hfields
      obtain ⟨v, hv, h⟩ := bind_eq_ok.1 h
      cases v with
      | none => exact ih hrest hbefore h
      | some w =>
          refine ih hrest ⟨Fields.nodup_keys_insert hbefore.1 name w, ?_⟩ h
          exact Value.everywhereFields_insert hbefore.2 name (he doc hdoc w hv)

theorem distinct_evalItems (hdoc : doc.Distinct) (hargs : ∀ e ∈ args, e.KeepsDistinct)
    {vs : List Value} (h : evalItems doc args = .ok vs) : ∀ v ∈ vs, v.Distinct := by
  induction args generalizing vs with
  | nil =>
      cases h
      exact List.forall_mem_nil _
  | cons e rest ih =>
      obtain ⟨he, hrest⟩ := List.forall_mem_cons.1 hargs
      obtain ⟨v, hv, h⟩ := bind_eq_ok.1 h
      obtain ⟨ws, hws, h⟩ := bind_eq_ok.1 h
      cases h
      exact List.forall_mem_cons.2 ⟨(he doc hdoc).getD hv, ih hrest hws⟩

theorem comesDistinct_of_evalBranches (hdoc : doc.Distinct) {branches : List (Expr × Expr)}
    (hbranches : ∀ b ∈ branches, b.2.KeepsDistinct) {result : Option Value}
    (h : evalBranches doc branches = .ok (some result)) : ComesDistinct (.ok result) := by
  induction branches with
  | nil => cases h
  | cons branch rest ih =>
      obtain ⟨case, e⟩ := branch
      obtain ⟨he, hrest⟩ := List.forall_mem_cons.1 hbranches
      obtain ⟨v, -, h⟩ := bind_eq_ok.1 h
      split at h
      · obtain ⟨w, hw, h⟩ := bind_eq_ok.1 h
        cases h
        rw [← hw]
        exact he doc hdoc
      · exact ih hrest h

theorem keepsDistinct_literal {v : Value} (h : v.Distinct) : (literal v).KeepsDistinct :=
  fun _ _ => comesDistinct_ok h

theorem keepsDistinct_field (path : String) : (field path).KeepsDistinct := by
  rintro doc hdoc v hv
  exact hdoc.resolve? (Except.ok.inj hv)

theorem keepsDistinct_root : root.KeepsDistinct := fun _ hdoc => comesDistinct_ok hdoc

theorem keepsDistinct_object {fields : List (String × Expr)}
    (h : ∀ f ∈ fields, f.2.KeepsDistinct) : (object fields).KeepsDistinct := by
  have hnone : (Value.object []).Distinct := ⟨List.nodup_nil, trivial⟩
  exact fun _ hdoc => .bind fun _ hm => comesDistinct_ok (distinct_evalFields hdoc h hnone hm)

theorem keepsDistinct_array (h : ∀ e ∈ args, e.KeepsDistinct) : (array args).KeepsDistinct :=
  fun _ hdoc => .bind fun _ hvs =>
    comesDistinct_ok (Value.everywhereItems_iff.2 (distinct_evalItems hdoc h hvs))

theorem keepsDistinct_add : (add args).KeepsDistinct :=
  fun _ _ => .bind fun _ _ => .bind fun _ hv => comesDistinct_ok (Operators.distinct_sum hv)

theorem keepsDistinct_multiply : (multiply args).KeepsDistinct :=
  fun _ _ => .bind fun _ _ => .bind fun _ hv => comesDistinct_ok (Operators.distinct_fold hv)

theorem keepsDistinct_subtract : (subtract a b).KeepsDistinct :=
  fun _ _ => .bind fun _ _ => .bind fun _ _ => .bind fun _ hv =>
    comesDistinct_ok (Operators.distinct_difference hv)

theorem keepsDistinct_divide : (divide a b).KeepsDistinct :=
  fun _ _ => .bind fun _ _ => .bind fun _ _ => .bind fun _ hv =>
    comesDistinct_ok (Operators.distinct_quotient hv)

theorem keepsDistinct_compare {relation : Comparison} : (compare relation a b).KeepsDistinct :=
  fun _ _ => .bind fun _ _ => .bind fun _ _ => comesDistinct_ok trivial

theorem keepsDistinct_and : (and args).KeepsDistinct :=
  fun _ _ => .bind fun _ _ => comesDistinct_ok trivial

theorem keepsDistinct_or : (or args).KeepsDistinct :=
  fun _ _ => .bind fun _ _ => comesDistinct_ok trivial

theorem keepsDistinct_not : (not e).KeepsDistinct :=
  fun _ _ => .bind fun _ _ => comesDistinct_ok trivial

theorem keepsDistinct_cond (hyes : a.KeepsDistinct) (hno : b.KeepsDistinct) :
    (cond c a b).KeepsDistinct := by
  intro doc hdoc
  refine .bind fun _ _ => ?_
  split
  · exact hyes doc hdoc
  · exact hno doc hdoc

theorem keepsDistinct_switch {branches : List (Expr × Expr)}
    (hbranches : ∀ b ∈ branches, b.2.KeepsDistinct) (he : e.KeepsDistinct) :
    (switch branches e).KeepsDistinct := by
  intro doc hdoc
  refine .bind fun result hresult => ?_
  cases result with
  | none => exact he doc hdoc
  | some r => exact comesDistinct_of_evalBranches hdoc hbranches hresult

theorem keepsDistinct_regexMatch {p : Pattern} : (regexMatch e p).KeepsDistinct :=
  fun _ _ => .bind fun _ _ => .bind fun _ hv => comesDistinct_ok (Operators.distinct_isMatch hv)

theorem keepsDistinct_dateToString {format : DateFormat} :
    (dateToString format e).KeepsDistinct :=
  fun _ _ => .bind fun _ _ => .bind fun _ hv => comesDistinct_ok (Operators.distinct_dateText hv)

theorem keepsDistinct_take (h : a.KeepsDistinct) : (take a b).KeepsDistinct :=
  fun doc hdoc => .bind fun _ ha => .bind fun _ _ => .bind fun _ hv =>
    comesDistinct_ok (Operators.distinct_take ((h doc hdoc).getD ha) hv)

theorem keepsDistinct_slice (h : a.KeepsDistinct) : (slice a b c).KeepsDistinct :=
  fun doc hdoc => .bind fun _ _ => .bind fun _ ha => .bind fun _ _ => .bind fun _ hv =>
    comesDistinct_ok (Operators.distinct_slice ((h doc hdoc).getD ha) hv)

/-! ## Reading -/

theorem gives_readVariable (cs : List Char) : Gives (readVariable cs) KeepsDistinct := by
  unfold readVariable
  dsimp only
  split
  · split
    · exact gives_pure keepsDistinct_root
    · exact gives_pure (keepsDistinct_field _)
  · exact gives_fail _

theorem gives_readText (text : String) : Gives (readText text) KeepsDistinct := by
  unfold readText
  split
  · exact gives_readVariable _
  · dsimp only
    split
    · exact gives_pure (keepsDistinct_field _)
    · exact gives_fail _
  · exact gives_pure (keepsDistinct_literal trivial)

theorem distinct_of_find? {key : String} {obj : Fields Json} (hobj : ∀ e ∈ obj, e.2.Distinct)
    {j : { j : Json // sizeOf j < sizeOf obj }} (h : Fields.find? obj key = some j) :
    j.1.Distinct := by
  have hget : Fields.get? obj key = some j.1 := by
    rw [← Fields.find?_eq_get?, h]
    rfl
  exact hobj _ (Fields.mem_of_get? hget)

theorem gives_required {operator key : String} {obj : Fields Json}
    (hobj : ∀ e ∈ obj, e.2.Distinct) : Gives (required operator key obj) fun j => j.1.Distinct :=
  gives_require (fun _ h => distinct_of_find? hobj h) _

theorem gives_triple (operator : String) (hargs : ∀ e ∈ args, e.KeepsDistinct) :
    Gives (triple operator args) fun t => t.2.1.KeepsDistinct ∧ t.2.2.KeepsDistinct := by
  unfold triple
  split
  · obtain ⟨-, hrest⟩ := List.forall_mem_cons.1 hargs
    obtain ⟨hyes, hrest⟩ := List.forall_mem_cons.1 hrest
    exact gives_pure ⟨hyes, (List.forall_mem_cons.1 hrest).1⟩
  · exact gives_fail _

theorem gives_readRegexMatch (operand : Json) : Gives (readRegexMatch operand) KeepsDistinct := by
  cases operand with
  | object obj =>
      unfold readRegexMatch
      exact gives_bind (gives_any _) fun _ _ => gives_bind (gives_any _) fun _ _ =>
        gives_bind (gives_any _) fun _ _ => gives_pure keepsDistinct_regexMatch
  | _ =>
      unfold readRegexMatch
      exact gives_fail _

theorem gives_readDateToString (operand : Json) :
    Gives (readDateToString operand) KeepsDistinct := by
  cases operand with
  | object obj =>
      unfold readDateToString
      exact gives_bind (gives_any _) fun _ _ => gives_bind (gives_any _) fun _ _ =>
        gives_bind (gives_any _) fun _ _ => gives_pure keepsDistinct_dateToString
  | _ =>
      unfold readDateToString
      exact gives_fail _

-- What is asked of the JSON stands behind the colon: only so do the bounds of the recursion see
-- which constructor the JSON has.
mutual

/-- **Whatever expression is read** from JSON without repeated names keeps names distinct. -/
theorem gives_read (j : Json) : j.Distinct → Gives (read j) KeepsDistinct := by
  intro hj
  unfold read
  split
  · exact gives_readText _
  · exact gives_bind (gives_readItems _ (Json.distinctItems_iff.1 hj)) fun _ h =>
      gives_pure (keepsDistinct_array h)
  · rename_i key operand
    split
    · exact gives_readOperator key operand hj.2.1
    · refine gives_bind (gives_read operand hj.2.1) fun _ h => gives_pure ?_
      exact keepsDistinct_object (List.forall_mem_singleton.2 h)
  · rename_i fields _
    split
    · exact gives_fail _
    · exact gives_bind (gives_readFields fields (Json.distinctFields_iff.1 hj.2)) fun _ h =>
        gives_pure (keepsDistinct_object h)
  · exact gives_pure (keepsDistinct_literal (Value.regular_ofJson j hj).distinct)
termination_by (sizeOf j, 0)

theorem gives_readItems (items : List Json) : (∀ j ∈ items, j.Distinct) →
    Gives (readItems items) fun es => ∀ e ∈ es, e.KeepsDistinct := by
  intro hitems
  cases items with
  | nil =>
      rw [readItems]
      exact gives_pure (List.forall_mem_nil _)
  | cons j rest =>
      obtain ⟨hj, hrest⟩ := List.forall_mem_cons.1 hitems
      rw [readItems]
      exact gives_bind (gives_read j hj) fun _ h => gives_bind (gives_readItems rest hrest)
        fun _ hes => gives_pure (List.forall_mem_cons.2 ⟨h, hes⟩)
termination_by (sizeOf items, 0)

theorem gives_readFields (fields : List (String × Json)) : (∀ e ∈ fields, e.2.Distinct) →
    Gives (readFields fields) fun es => ∀ e ∈ es, e.2.KeepsDistinct := by
  cases fields with
  | nil =>
      intro _
      rw [readFields]
      exact gives_pure (List.forall_mem_nil _)
  | cons e rest =>
      intro hfields
      obtain ⟨name, j⟩ := e
      obtain ⟨hj, hrest⟩ := List.forall_mem_cons.1 hfields
      rw [readFields]
      exact gives_bind (gives_read j hj) fun _ h => gives_bind (gives_readFields rest hrest)
        fun _ hes => gives_pure (List.forall_mem_cons.2 ⟨h, hes⟩)
termination_by (sizeOf fields, 0)

theorem gives_readArguments (operator : String) (operand : Json) : operand.Distinct →
    Gives (readArguments operator operand) fun es => ∀ e ∈ es, e.KeepsDistinct := by
  intro hoperand
  unfold readArguments
  split
  · exact gives_readItems _ (Json.distinctItems_iff.1 hoperand)
  · exact gives_bind (gives_mapError (gives_read operand hoperand)) fun _ h =>
      gives_pure (List.forall_mem_singleton.2 h)
termination_by (sizeOf operand, 1)

theorem gives_readOperator (operator : String) (operand : Json) : operand.Distinct →
    Gives (readOperator operator operand) KeepsDistinct := by
  intro hoperand
  have hargs := gives_readArguments operator operand hoperand
  unfold readOperator
  split
  · exact gives_pure (keepsDistinct_literal (Value.regular_ofJson operand hoperand).distinct)
  · refine gives_pure (keepsDistinct_literal (Value.regular_ofJson _ ?_).distinct)
    exact ⟨List.nodup_singleton _, hoperand, trivial⟩
  · exact gives_bind (gives_any _) fun _ _ => gives_pure keepsDistinct_add
  · exact gives_bind (gives_any _) fun _ _ => gives_pure keepsDistinct_multiply
  · exact gives_bind (gives_any _) fun _ _ => gives_bind (gives_any _) fun _ _ =>
      gives_pure keepsDistinct_subtract
  · exact gives_bind (gives_any _) fun _ _ => gives_bind (gives_any _) fun _ _ =>
      gives_pure keepsDistinct_divide
  · exact gives_bind (gives_any _) fun _ _ => gives_pure keepsDistinct_and
  · exact gives_bind (gives_any _) fun _ _ => gives_pure keepsDistinct_or
  · refine gives_bind (gives_any _) fun _ _ => ?_
    split
    · exact gives_pure keepsDistinct_not
    · exact gives_fail _
  · exact gives_readCond operand hoperand
  · exact gives_readSwitch operand hoperand
  · exact gives_readRegexMatch operand
  · exact gives_readDateToString operand
  · refine gives_bind hargs fun args h => ?_
    split
    · exact gives_pure (keepsDistinct_take (List.forall_mem_cons.1 h).1)
    · exact gives_pure (keepsDistinct_slice (List.forall_mem_cons.1 h).1)
    · exact gives_fail _
  · split
    · exact gives_fail _
    · exact gives_bind (gives_any _) fun _ _ => gives_bind (gives_any _) fun _ _ =>
        gives_pure keepsDistinct_compare
termination_by (sizeOf operand, 3)

theorem gives_readCond (operand : Json) : operand.Distinct →
    Gives (readCond operand) KeepsDistinct := by
  cases operand with
  | array args =>
      intro hoperand
      unfold readCond
      refine gives_bind (gives_readItems args (Json.distinctItems_iff.1 hoperand)) fun _ h => ?_
      exact gives_bind (gives_triple _ h) fun _ h => gives_pure (keepsDistinct_cond h.1 h.2)
  | object obj =>
      intro hoperand
      have hobj := Json.distinctFields_iff.1 hoperand.2
      unfold readCond
      dsimp only
      split
      · exact gives_fail _
      · refine gives_bind (gives_any _) fun c _ => gives_bind (gives_any _) fun _ _ => ?_
        refine gives_bind (gives_required hobj) fun y hy => ?_
        -- A part comes with the bound that the recursion goes by.
        have := y.2
        refine gives_bind (gives_read y.1 hy) fun _ hyes => ?_
        refine gives_bind (gives_required hobj) fun n hn => ?_
        have := n.2
        exact gives_bind (gives_read n.1 hn) fun _ hno => gives_pure (keepsDistinct_cond hyes hno)
  | _ =>
      intro _
      unfold readCond
      exact gives_fail _
termination_by (sizeOf operand, 2)

theorem gives_readSwitch (operand : Json) : operand.Distinct →
    Gives (readSwitch operand) KeepsDistinct := by
  cases operand with
  | object obj =>
      intro hoperand
      have hobj := Json.distinctFields_iff.1 hoperand.2
      unfold readSwitch
      refine gives_bind (gives_required hobj) fun b hb => ?_
      have := b.2
      refine gives_bind (gives_readBranches b.1 hb) fun _ hbranches => ?_
      cases hd : Fields.find? obj "default" with
      | none => exact gives_fail _
      | some d =>
          have := d.2
          exact gives_bind (gives_read d.1 (distinct_of_find? hobj hd)) fun _ h =>
            gives_pure (keepsDistinct_switch hbranches h)
  | _ =>
      intro _
      unfold readSwitch
      exact gives_fail _
termination_by (sizeOf operand, 2)

theorem gives_readBranches (j : Json) : j.Distinct →
    Gives (readBranches j) fun branches => ∀ b ∈ branches, b.2.KeepsDistinct := by
  intro hj
  unfold readBranches
  split
  · exact gives_fail _
  · exact gives_readEachBranch _ (Json.distinctItems_iff.1 hj)
  · exact gives_fail _
termination_by (sizeOf j, 1)

theorem gives_readEachBranch (items : List Json) : (∀ j ∈ items, j.Distinct) →
    Gives (readEachBranch items) fun branches => ∀ b ∈ branches, b.2.KeepsDistinct := by
  intro hitems
  cases items with
  | nil =>
      rw [readEachBranch]
      exact gives_pure (List.forall_mem_nil _)
  | cons j rest =>
      obtain ⟨hj, hrest⟩ := List.forall_mem_cons.1 hitems
      rw [readEachBranch]
      exact gives_bind (gives_readBranch j hj) fun _ h =>
        gives_bind (gives_readEachBranch rest hrest) fun _ hbranches =>
          gives_pure (List.forall_mem_cons.2 ⟨h, hbranches⟩)
termination_by (sizeOf items, 0)

theorem gives_readBranch (j : Json) : j.Distinct →
    Gives (readBranch j) fun b => b.2.KeepsDistinct := by
  cases j with
  | object obj =>
      intro hj
      have hobj := Json.distinctFields_iff.1 hj.2
      unfold readBranch
      refine gives_bind (gives_any _) fun _ _ => gives_bind (gives_any _) fun _ _ => ?_
      refine gives_bind (gives_required hobj) fun t ht => ?_
      have := t.2
      exact gives_bind (gives_read t.1 ht) fun _ h => gives_pure h
  | _ =>
      intro _
      unfold readBranch
      exact gives_fail _
termination_by (sizeOf j, 1)

end

end Expr

end DocStore
