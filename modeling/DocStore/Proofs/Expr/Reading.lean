import DocStore.Accumulator
import DocStore.Proofs.Filter.Cached

/-!
# Expressions read in two contexts

A relation between what is read without a cache of patterns and what is read with one is
`Compatible` if every way of building readings keeps it. Such a relation holds of the two readings
of each expression (`Compatible.readExpr`) and of named accumulators
(`Compatible.readAccumulators`). An expression that names no pattern is read the same with every
cache (`Always`), part by part.
-/

set_option autoImplicit false

namespace DocStore

/-- A relation of readings that every way of building them keeps. Failures are ones of the
configuration; where a part may fail otherwise, another error takes the place of its own. -/
structure Compatible (R : ∀ {α : Type}, Result α → CachedReading α → Prop) : Prop where
  pure : ∀ {α : Type} (a : α), R (pure a) (pure a)
  bind : ∀ {α β : Type} {x : Result α} {y : CachedReading α} {f : α → Result β}
    {g : α → CachedReading β}, R x y → (∀ a, R (f a) (g a)) → R (x >>= f) (y >>= g)
  fail : ∀ {α : Type} (fault : ConfigFault),
    R (Reading.fail (.config fault) : Result α) (Reading.fail (.config fault))
  /-- Another error, which is one of the configuration wherever the first was. -/
  mapError : ∀ {α : Type} {x : Result α} {y : CachedReading α} {f : Error → Error},
    (∀ fault, (f (.config fault)).isConfig = true) → R x y →
      R (Reading.mapError f x) (Reading.mapError f y)
  pattern : ∀ (source options : String) {f : Error → Error}, (∀ e, (f e).isConfig = true) →
    R (Reading.mapError f (Reading.pattern source options))
      (Reading.mapError f (Reading.pattern source options))
  filter : ∀ (j : Json) {f : Error → Error}, (∀ e, (f e).isConfig = true) →
    R (Reading.mapError f (Filter.read j)) (Reading.mapError f (Filter.read j))

namespace Compatible

variable {R : ∀ {α : Type}, Result α → CachedReading α → Prop} (h : Compatible @R)
include h

theorem require {α : Type} (v : Option α) (fault : ConfigFault) :
    R (Reading.require v (.config fault)) (Reading.require v (.config fault)) := by
  cases v with
  | none => exact h.fail fault
  | some a => exact h.pure a

/-! ## Parts of expressions -/

theorem exprFail {α : Type} (f : ExprFault) : R (Expr.fail f : Result α) (Expr.fail f) :=
  h.fail (.expr f)

theorem readVariable (cs : List Char) : R (Expr.readVariable cs) (Expr.readVariable cs) := by
  unfold Expr.readVariable
  dsimp only
  split
  · split
    · exact h.pure _
    · exact h.pure _
  · exact h.exprFail _

theorem readText (text : String) : R (Expr.readText text) (Expr.readText text) := by
  unfold Expr.readText
  split
  · exact h.readVariable _
  · dsimp only
    split
    · exact h.pure _
    · exact h.exprFail _
  · exact h.pure _

theorem required (operator key : String) (obj : Fields Json) :
    R (Expr.required operator key obj) (Expr.required operator key obj) :=
  h.require _ _

theorem pair (operator : String) (args : List Expr) :
    R (Expr.pair operator args) (Expr.pair operator args) := by
  unfold Expr.pair
  split
  · exact h.pure _
  · exact h.exprFail _

theorem triple (operator : String) (args : List Expr) :
    R (Expr.triple operator args) (Expr.triple operator args) := by
  unfold Expr.triple
  split
  · exact h.pure _
  · exact h.exprFail _

theorem textArgument (obj : Fields Json) (key standard : String) (f : ExprFault) :
    R (Expr.textArgument obj key standard f) (Expr.textArgument obj key standard f) := by
  unfold Expr.textArgument
  split
  · exact h.pure _
  · exact h.pure _
  · exact h.exprFail f

theorem readPattern (obj : Fields Json) : R (Expr.readPattern obj) (Expr.readPattern obj) :=
  h.bind (h.required _ _ obj) fun _ =>
    h.bind (h.require _ _) fun source =>
      h.bind (h.textArgument obj _ _ _) fun options => h.pattern source options fun _ => rfl

theorem readFormat (obj : Fields Json) : R (Expr.readFormat obj) (Expr.readFormat obj) := by
  refine h.bind (h.textArgument obj _ _ _) fun text =>
    h.bind (h.textArgument obj _ _ _) fun zone => ?_
  split
  · split
    · exact h.pure _
    · exact h.exprFail _
  · exact h.exprFail _

/-! ## Expressions -/

mutual

/-- **Each expression** is read in related ways. -/
theorem readExpr (j : Json) : R (Expr.read j) (Expr.read j) := by
  unfold Expr.read
  split
  · exact h.readText _
  · rename_i items
    exact h.bind (readItems items) fun _ => h.pure _
  · rename_i key operand
    split
    · exact readOperator key operand
    · exact h.bind (readExpr operand) fun _ => h.pure _
  · rename_i fields _
    split
    · exact h.exprFail _
    · exact h.bind (readFields fields) fun _ => h.pure _
  · exact h.pure _
termination_by (sizeOf j, 0)

theorem readItems (items : List Json) : R (Expr.readItems items) (Expr.readItems items) := by
  cases items with
  | nil =>
      rw [Expr.readItems, Expr.readItems]
      exact h.pure []
  | cons j rest =>
      rw [Expr.readItems, Expr.readItems]
      exact h.bind (readExpr j) fun _ => h.bind (readItems rest) fun _ => h.pure _
termination_by (sizeOf items, 0)

theorem readFields (fields : List (String × Json)) :
    R (Expr.readFields fields) (Expr.readFields fields) := by
  cases fields with
  | nil =>
      rw [Expr.readFields, Expr.readFields]
      exact h.pure []
  | cons e rest =>
      obtain ⟨name, j⟩ := e
      rw [Expr.readFields, Expr.readFields]
      exact h.bind (readExpr j) fun _ => h.bind (readFields rest) fun _ => h.pure _
termination_by (sizeOf fields, 0)

theorem readArguments (name : String) (operand : Json) :
    R (Expr.readArguments name operand) (Expr.readArguments name operand) := by
  unfold Expr.readArguments
  split
  · exact readItems _
  · exact h.bind (h.mapError (fun _ => rfl) (readExpr operand)) fun _ => h.pure _
termination_by (sizeOf operand, 1)

theorem readExactly (operand : Json) : R (Expr.readExactly operand) (Expr.readExactly operand) := by
  unfold Expr.readExactly
  split
  · exact readItems _
  · exact h.pure []
termination_by (sizeOf operand, 1)

theorem readOperator (name : String) (operand : Json) :
    R (Expr.readOperator name operand) (Expr.readOperator name operand) := by
  have hlist := readArguments name operand
  unfold Expr.readOperator
  split
  · exact h.pure _
  · exact h.pure _
  · exact h.bind hlist fun _ => h.pure _
  · exact h.bind hlist fun _ => h.pure _
  · exact h.bind (readExactly operand) fun args => h.bind (h.pair _ args) fun _ => h.pure _
  · exact h.bind (readExactly operand) fun args => h.bind (h.pair _ args) fun _ => h.pure _
  · exact h.bind hlist fun _ => h.pure _
  · exact h.bind hlist fun _ => h.pure _
  · refine h.bind hlist fun _ => ?_
    split
    · exact h.pure _
    · exact h.exprFail _
  · exact readCond operand
  · exact readSwitch operand
  · exact readRegexMatch operand
  · exact readDateToString operand
  · refine h.bind hlist fun _ => ?_
    split
    · exact h.pure _
    · exact h.pure _
    · exact h.exprFail _
  · split
    · exact h.exprFail _
    · exact h.bind (readExactly operand) fun args => h.bind (h.pair _ args) fun _ => h.pure _
termination_by (sizeOf operand, 3)

theorem readCond (operand : Json) : R (Expr.readCond operand) (Expr.readCond operand) := by
  cases operand with
  | array args =>
      unfold Expr.readCond
      exact h.bind (readItems args) fun args => h.bind (h.triple _ args) fun _ => h.pure _
  | object obj =>
      unfold Expr.readCond
      dsimp only
      split
      · exact h.exprFail _
      · refine h.bind (h.required _ _ obj) fun c => ?_
        -- A part comes with the bound that the recursion goes by.
        have := c.2
        refine h.bind (readExpr c.1) fun _ => h.bind (h.required _ _ obj) fun y => ?_
        have := y.2
        refine h.bind (readExpr y.1) fun _ => h.bind (h.required _ _ obj) fun n => ?_
        have := n.2
        exact h.bind (readExpr n.1) fun _ => h.pure _
  | _ =>
      unfold Expr.readCond
      exact h.exprFail _
termination_by (sizeOf operand, 2)

theorem readSwitch (operand : Json) : R (Expr.readSwitch operand) (Expr.readSwitch operand) := by
  cases operand with
  | object obj =>
      unfold Expr.readSwitch
      refine h.bind (h.required _ _ obj) fun b => ?_
      have := b.2
      refine h.bind (readBranches b.1) fun _ => ?_
      cases Fields.find? obj "default" with
      | none => exact h.exprFail _
      | some d =>
          have := d.2
          exact h.bind (readExpr d.1) fun _ => h.pure _
  | _ =>
      unfold Expr.readSwitch
      exact h.exprFail _
termination_by (sizeOf operand, 2)

theorem readBranches (j : Json) : R (Expr.readBranches j) (Expr.readBranches j) := by
  unfold Expr.readBranches
  split
  · exact h.exprFail _
  · exact readEachBranch _
  · exact h.exprFail _
termination_by (sizeOf j, 1)

theorem readEachBranch (items : List Json) :
    R (Expr.readEachBranch items) (Expr.readEachBranch items) := by
  cases items with
  | nil =>
      rw [Expr.readEachBranch, Expr.readEachBranch]
      exact h.pure []
  | cons j rest =>
      rw [Expr.readEachBranch, Expr.readEachBranch]
      exact h.bind (readBranch j) fun _ => h.bind (readEachBranch rest) fun _ => h.pure _
termination_by (sizeOf items, 0)

theorem readBranch (j : Json) : R (Expr.readBranch j) (Expr.readBranch j) := by
  cases j with
  | object obj =>
      unfold Expr.readBranch
      refine h.bind (h.required _ _ obj) fun c => ?_
      have := c.2
      refine h.bind (readExpr c.1) fun _ => h.bind (h.required _ _ obj) fun t => ?_
      have := t.2
      exact h.bind (readExpr t.1) fun _ => h.pure _
  | _ =>
      unfold Expr.readBranch
      exact h.exprFail _
termination_by (sizeOf j, 1)

theorem readRegexMatch (operand : Json) :
    R (Expr.readRegexMatch operand) (Expr.readRegexMatch operand) := by
  cases operand with
  | object obj =>
      unfold Expr.readRegexMatch
      refine h.bind (h.required _ _ obj) fun i => ?_
      have := i.2
      exact h.bind (readExpr i.1) fun _ => h.bind (h.readPattern obj) fun _ => h.pure _
  | _ =>
      unfold Expr.readRegexMatch
      exact h.exprFail _
termination_by (sizeOf operand, 2)

theorem readDateToString (operand : Json) :
    R (Expr.readDateToString operand) (Expr.readDateToString operand) := by
  cases operand with
  | object obj =>
      unfold Expr.readDateToString
      refine h.bind (h.readFormat obj) fun _ => h.bind (h.required _ _ obj) fun d => ?_
      have := d.2
      exact h.bind (readExpr d.1) fun _ => h.pure _
  | _ =>
      unfold Expr.readDateToString
      exact h.exprFail _
termination_by (sizeOf operand, 2)

end

/-! ## Accumulators -/

theorem readAccumulator (field : String) (j : Json) :
    R (Accumulators.readOne field j) (Accumulators.readOne field j) := by
  unfold Accumulators.readOne
  split
  · split
    · exact h.exprFail _
    · exact h.bind (h.readExpr _) fun _ => h.pure _
  · exact h.exprFail _

theorem readAccumulators (reserved : List String) (specs : List (String × Json)) :
    R (Accumulators.read reserved specs) (Accumulators.read reserved specs) := by
  induction specs with
  | nil => exact h.pure []
  | cons e rest ih =>
      unfold Accumulators.read
      split
      · exact ih
      · split
        · exact h.exprFail _
        · exact h.bind (h.readAccumulator e.1 e.2) fun _ => h.bind ih fun _ => h.pure _

end Compatible

/-! ## Without patterns -/

namespace Expr

variable {e : Expr} {es : List Expr} {j operand : Json} {rest : List Json}

theorem always_read_text {text : String} (h : Always (readText text) e) :
    Always (read (.string text)) e := by
  rwa [read]

theorem always_read_number (n : Json.Number) :
    Always (read (.number n)) (.literal (.ofJson (.number n))) := by
  simp only [read]
  exact always_pure _

theorem always_read_operator {operator : String} (hname : Segments.isOperator operator = true)
    (h : Always (readOperator operator operand) e) :
    Always (read (.object [(operator, operand)])) e := by
  rwa [read, if_pos hname]

theorem always_readItems_nil : Always (readItems []) [] := by
  rw [readItems]
  exact always_pure []

theorem always_readItems_cons (hone : Always (read j) e) (hrest : Always (readItems rest) es) :
    Always (readItems (j :: rest)) (e :: es) := by
  rw [readItems]
  exact hone.bind (hrest.bind (always_pure _))

end Expr

namespace Accumulators

variable {reserved : List String} {field : String} {spec : Json} {rest : List (String × Json)}
  {acc : Accumulator} {accs : Accumulators}

theorem always_read_reserved (h : reserved.contains field = true)
    (hrest : Always (read reserved rest) accs) :
    Always (read reserved ((field, spec) :: rest)) accs := by
  rw [read, if_pos h]
  exact hrest

theorem always_read_cons (hfree : reserved.contains field = false)
    (hname : (field.contains '.' || Segments.isOperator field) = false)
    (hone : Always (readOne field spec) acc) (hrest : Always (read reserved rest) accs) :
    Always (read reserved ((field, spec) :: rest)) ((field, acc) :: accs) := by
  rw [read, hfree, if_neg Bool.false_ne_true, hname, if_neg Bool.false_ne_true]
  exact hone.bind (hrest.bind (always_pure _))

end Accumulators

end DocStore
