import DocStore.Expr.DateFormat
import DocStore.Pattern

/-!
# Expressions

An expression computes a value from a document. Its operators take expressions; patterns and date
formats are fixed when it is read.
-/

set_option autoImplicit false

namespace DocStore

/-- A relation between two values in the order of all values. -/
inductive Comparison where
  | eq
  | ne
  | gt
  | gte
  | lt
  | lte
deriving DecidableEq, Repr

namespace Comparison

/-- The relation that an operator stands for. -/
def ofName? : String → Option Comparison
  | "$eq" => some eq
  | "$ne" => some ne
  | "$gt" => some gt
  | "$gte" => some gte
  | "$lt" => some lt
  | "$lte" => some lte
  | _ => none

/-- Whether the relation holds between values that are ordered in this way. -/
def holds : Comparison → Ordering → Bool
  | eq, o => o.isEq
  | ne, o => o.isNe
  | gt, o => o.isGT
  | gte, o => o.isGE
  | lt, o => o.isLT
  | lte, o => o.isLE

end Comparison

/-- An expression over the fields of a document. -/
inductive Expr where
  | literal (v : Value)
  /-- What a path of the document reaches, arrays on the way being kept. -/
  | field (path : String)
  /-- The document. -/
  | root
  | object (fields : List (String × Expr))
  | array (items : List Expr)
  | add (args : List Expr)
  | subtract (a b : Expr)
  | multiply (args : List Expr)
  | divide (a b : Expr)
  | compare (relation : Comparison) (a b : Expr)
  | and (args : List Expr)
  | or (args : List Expr)
  | not (arg : Expr)
  | cond (condition yes no : Expr)
  /-- The result of the first branch whose case holds. -/
  | switch (branches : List (Expr × Expr)) (otherwise : Expr)
  | regexMatch (input : Expr) (pattern : Pattern)
  | dateToString (format : DateFormat) (date : Expr)
  /-- The first items of an array, or the last ones for a negative count. -/
  | take (array count : Expr)
  /-- Items of an array from a position on, which counts from the end if it is negative. -/
  | slice (array position count : Expr)

end DocStore
