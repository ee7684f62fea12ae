import DocStore.Expr.Eval
import DocStore.Proofs.Error

/-!
# Errors of expressions

Operators refuse values of the wrong kind and results that cannot be represented. Both errors
concern the document that the expression is evaluated on, and evaluation ends in no other:
`Expr.failsLocally_eval?`.
-/

set_option autoImplicit false

namespace DocStore

/-! ## Operators -/

namespace Operators

theorem failsLocally_checkNumeric (operator : String) (v : Value) :
    FailsLocally (checkNumeric operator v) := by
  unfold checkNumeric
  split
  · exact failsOnly_ok ()
  · exact failsLocally_type _

theorem failsLocally_fold (op : Arithmetic) (values : List Value) :
    FailsLocally (fold op values) := by
  refine (failsOnly_forM fun v _ => failsLocally_checkNumeric op.name v).bind fun _ => ?_
  split
  · exact failsOnly_ok _
  · exact failsOnly_ok _

theorem failsLocally_quotient (a b : Value) : FailsLocally (quotient a b) := by
  refine (failsLocally_checkNumeric _ a).bind fun _ => ?_
  refine (failsLocally_checkNumeric _ b).bind fun _ => ?_
  split
  · split
    · exact failsLocally_arithmetic _
    · exact failsOnly_ok _
  · exact failsOnly_ok _

theorem failsLocally_shift (t : Instant) (ms : Int) : FailsLocally (shift t ms) := by
  unfold shift
  split
  · exact failsOnly_ok _
  · exact failsLocally_arithmetic _

theorem failsLocally_wholeMillis (f : Float) : FailsLocally (wholeMillis f) := by
  unfold wholeMillis
  split
  · exact failsOnly_ok _
  · exact failsLocally_arithmetic _

theorem failsLocally_offset (v : Value) : FailsLocally (offset v) := by
  unfold offset
  split
  · exact failsOnly_ok _
  · exact failsOnly_ok _
  · exact (failsLocally_wholeMillis _).map some
  · exact failsLocally_type _

theorem failsLocally_totalOffset (total : Int64) (values : List Value) :
    FailsLocally (totalOffset total values) := by
  induction values generalizing total with
  | nil => exact failsOnly_ok _
  | cons v rest ih =>
      refine (failsLocally_offset v).bind fun n => ?_
      split
      · exact failsOnly_ok _
      · split
        · exact ih _
        · exact failsLocally_arithmetic _

theorem failsLocally_sum (values : List Value) : FailsLocally (sum values) := by
  unfold sum
  split
  · exact failsLocally_fold .add values
  · refine (failsLocally_totalOffset 0 _).bind fun ms => ?_
    split
    · exact failsOnly_ok _
    · exact failsLocally_shift _ _

theorem failsLocally_difference (a b : Value) : FailsLocally (difference a b) := by
  unfold difference
  split
  · exact failsOnly_ok _
  · exact failsLocally_shift _ _
  · exact (failsLocally_wholeMillis _).bind fun _ => failsLocally_shift _ _
  · exact failsOnly_ok _
  · refine (failsLocally_checkNumeric _ _).bind fun _ => ?_
    refine (failsLocally_checkNumeric _ _).bind fun _ => ?_
    split
    · exact failsOnly_ok _
    · exact failsOnly_ok _

theorem failsLocally_integral (name : String) (v : Value) : FailsLocally (integral name v) := by
  unfold integral
  split
  · exact failsOnly_ok _
  · split
    · exact failsOnly_ok _
    · exact failsLocally_type _
  · exact failsLocally_type _

theorem failsLocally_items (v : Value) : FailsLocally (items v) := by
  unfold items
  split
  · exact failsOnly_ok _
  · exact failsLocally_type _

theorem failsLocally_take (array count : Value) : FailsLocally (take array count) := by
  unfold take
  split
  · exact failsOnly_ok _
  · refine (failsLocally_items array).bind fun _ => ?_
    exact (failsLocally_integral _ count).bind fun _ => failsOnly_ok _

theorem failsLocally_slice (array position count : Value) :
    FailsLocally (slice array position count) := by
  unfold slice
  split
  · exact failsOnly_ok _
  · refine (failsLocally_items array).bind fun _ => ?_
    refine (failsLocally_integral _ count).bind fun _ => ?_
    refine (failsLocally_integral _ position).bind fun _ => ?_
    split
    · exact failsLocally_type _
    · exact failsOnly_ok _

theorem failsLocally_isMatch (p : Pattern) (v : Value) : FailsLocally (isMatch p v) := by
  unfold isMatch
  split
  · exact failsOnly_ok _
  · exact failsOnly_ok _
  · exact failsLocally_type _

theorem failsLocally_dateText (format : DateFormat) (v : Value) :
    FailsLocally (dateText format v) := by
  unfold dateText
  split
  · exact failsOnly_ok _
  · exact failsOnly_ok _
  · exact failsLocally_type _

end Operators

/-! ## Evaluation -/

namespace Expr

open Operators

mutual

/-- **Evaluating an expression fails with errors that concern the document only.** -/
theorem failsLocally_eval? (doc : Value) : (e : Expr) → FailsLocally (eval? doc e)
  | literal _ => failsOnly_ok _
  | field _ => failsOnly_ok _
  | root => failsOnly_ok _
  | object fields => (failsLocally_evalFields doc [] fields).bind fun _ => failsOnly_ok _
  | array items => (failsLocally_evalItems doc items).bind fun _ => failsOnly_ok _
  | add args => (failsLocally_evalItems doc args).bind fun vs =>
      (failsLocally_sum vs).bind fun _ => failsOnly_ok _
  | multiply args => (failsLocally_evalItems doc args).bind fun vs =>
      (failsLocally_fold .multiply vs).bind fun _ => failsOnly_ok _
  | subtract a b => (failsLocally_eval? doc a).bind fun _ =>
      (failsLocally_eval? doc b).bind fun _ =>
      (failsLocally_difference _ _).bind fun _ => failsOnly_ok _
  | divide a b => (failsLocally_eval? doc a).bind fun _ =>
      (failsLocally_eval? doc b).bind fun _ =>
      (failsLocally_quotient _ _).bind fun _ => failsOnly_ok _
  | compare _ a b => (failsLocally_eval? doc a).bind fun _ =>
      (failsLocally_eval? doc b).bind fun _ => failsOnly_ok _
  | and args => (failsLocally_evalAll doc args).bind fun _ => failsOnly_ok _
  | or args => (failsLocally_evalAny doc args).bind fun _ => failsOnly_ok _
  | not arg => (failsLocally_eval? doc arg).bind fun _ => failsOnly_ok _
  | cond condition yes no => by
      refine (failsLocally_eval? doc condition).bind fun v => ?_
      split
      · exact failsLocally_eval? doc yes
      · exact failsLocally_eval? doc no
  | switch branches otherwise => by
      refine (failsLocally_evalBranches doc branches).bind fun result => ?_
      split
      · exact failsOnly_ok _
      · exact failsLocally_eval? doc otherwise
  | regexMatch input pattern => (failsLocally_eval? doc input).bind fun _ =>
      (failsLocally_isMatch pattern _).bind fun _ => failsOnly_ok _
  | dateToString format date => (failsLocally_eval? doc date).bind fun _ =>
      (failsLocally_dateText format _).bind fun _ => failsOnly_ok _
  | take items count => (failsLocally_eval? doc items).bind fun _ =>
      (failsLocally_eval? doc count).bind fun _ =>
      (Operators.failsLocally_take _ _).bind fun _ => failsOnly_ok _
  | slice items position count => (failsLocally_eval? doc position).bind fun _ =>
      (failsLocally_eval? doc items).bind fun _ => (failsLocally_eval? doc count).bind fun _ =>
      (Operators.failsLocally_slice _ _ _).bind fun _ => failsOnly_ok _

theorem failsLocally_evalFields (doc : Value) (before : Fields Value) :
    (fields : List (String × Expr)) → FailsLocally (evalFields doc before fields)
  | [] => failsOnly_ok _
  | (name, e) :: rest => by
      refine (failsLocally_eval? doc e).bind fun v => ?_
      split
      · exact failsLocally_evalFields doc _ rest
      · exact failsLocally_evalFields doc before rest

theorem failsLocally_evalItems (doc : Value) :
    (es : List Expr) → FailsLocally (evalItems doc es)
  | [] => failsOnly_ok _
  | e :: rest => (failsLocally_eval? doc e).bind fun _ =>
      (failsLocally_evalItems doc rest).bind fun _ => failsOnly_ok _

theorem failsLocally_evalAll (doc : Value) : (es : List Expr) → FailsLocally (evalAll doc es)
  | [] => failsOnly_ok _
  | e :: rest => by
      refine (failsLocally_eval? doc e).bind fun v => ?_
      split
      · exact failsLocally_evalAll doc rest
      · exact failsOnly_ok _

theorem failsLocally_evalAny (doc : Value) : (es : List Expr) → FailsLocally (evalAny doc es)
  | [] => failsOnly_ok _
  | e :: rest => by
      refine (failsLocally_eval? doc e).bind fun v => ?_
      split
      · exact failsOnly_ok _
      · exact failsLocally_evalAny doc rest

theorem failsLocally_evalBranches (doc : Value) :
    (branches : List (Expr × Expr)) → FailsLocally (evalBranches doc branches)
  | [] => failsOnly_ok _
  | (case, result) :: rest => by
      refine (failsLocally_eval? doc case).bind fun v => ?_
      split
      · exact (failsLocally_eval? doc result).bind fun _ => failsOnly_ok _
      · exact failsLocally_evalBranches doc rest

end

theorem failsLocally_eval (e : Expr) (doc : Value) : FailsLocally (e.eval doc) :=
  (failsLocally_eval? doc e).bind fun _ => failsOnly_ok _

end Expr

end DocStore
