import DocStore.Value.Basic

/-!
# Equality and order of values

`Value.equal` is equality of content: numbers are compared across integers and doubles, and the
order of fields does not count. `Value.compare` orders any two values, those of different classes
by `Value.rank`; `Value.compareSameClass?` compares scalars of one class only.
-/

set_option autoImplicit false

namespace DocStore.Value

/-! ## Equality -/

/-- Equality of two numbers; an integer next to a double is first rounded to one. -/
def equalNumbers : Value → Value → Bool
  | int a, int b => a == b
  | float a, float b => Binary64.equal a b
  | int a, float b => Binary64.equal (Binary64.ofInt64 a) b
  | float a, int b => Binary64.equal a (Binary64.ofInt64 b)
  | _, _ => false

mutual

/-- Equality of content. -/
def equal : Value → Value → Bool
  | null, null => true
  | bool a, bool b => a == b
  | string a, string b => a == b
  | date a, date b => a == b
  | array a, array b => equalItems a b
  | object a, object b => a.length == b.length && equalFields a b
  | a, b => equalNumbers a b

/-- Equality of arrays, item by item. -/
def equalItems : List Value → List Value → Bool
  | [], [] => true
  | a :: as, b :: bs => equal a b && equalItems as bs
  | _, _ => false

/-- Whether each field has an equal one of the same name among the others. -/
def equalFields : List (String × Value) → List (String × Value) → Bool
  | [], _ => true
  | (k, v) :: rest, others =>
    (match Fields.get? others k with
      | some w => equal v w
      | none => false) && equalFields rest others

end

instance : BEq Value := ⟨equal⟩

/-! ## Order -/

/-- The place of a value's class: null, numbers, strings, objects, arrays, booleans, dates. -/
def rank : Value → Nat
  | null => 0
  | int _ => 1
  | float _ => 1
  | string _ => 2
  | object _ => 3
  | array _ => 4
  | bool _ => 5
  | date _ => 6

/-- Order of two integers, by value. -/
def compareInts (a b : Int64) : Ordering := Ord.compare a.toInt b.toInt

/-- Order of two numbers with NaN below the others; integers keep their exact value among
themselves. -/
def compareNumbers : Value → Value → Ordering
  | int a, int b => compareInts a b
  | float a, float b => Binary64.compareTotal a b
  | int a, float b => Binary64.compareTotal (Binary64.ofInt64 a) b
  | float a, int b => Binary64.compareTotal a (Binary64.ofInt64 b)
  | _, _ => .eq

mutual

/-- Order of any two values. -/
def compare : Value → Value → Ordering
  | string a, string b => Ord.compare a b
  | bool a, bool b => Ord.compare a b
  | date a, date b => Instant.compare a b
  | array a, array b => compareItems a b
  | object a, object b => compareFields a b
  | a, b => (Ord.compare a.rank b.rank).then (compareNumbers a b)

/-- Order of arrays: the first difference decides, then the length. -/
def compareItems : List Value → List Value → Ordering
  | [], [] => .eq
  | [], _ :: _ => .lt
  | _ :: _, [] => .gt
  | a :: as, b :: bs => (compare a b).then (compareItems as bs)

/-- Order of objects: names and values in turn, then the number of fields. -/
def compareFields : List (String × Value) → List (String × Value) → Ordering
  | [], [] => .eq
  | [], _ :: _ => .lt
  | _ :: _, [] => .gt
  | (k, v) :: rest, (l, w) :: others =>
    ((Ord.compare k l).then (compare v w)).then (compareFields rest others)

end

/-- Order of values that may be missing; a missing value counts as null. -/
def compareOptional (a b : Option Value) : Ordering :=
  compare (a.getD null) (b.getD null)

/-- Order of two scalars of one class; nothing else is comparable. -/
def compareSameClass? : Value → Value → Option Ordering
  | int a, int b => some (compareInts a b)
  | float a, float b => Binary64.compare? a b
  | int a, float b => Binary64.compare? (Binary64.ofInt64 a) b
  | float a, int b => Binary64.compare? a (Binary64.ofInt64 b)
  | string a, string b => some (Ord.compare a b)
  | date a, date b => some (Instant.compare a b)
  | bool a, bool b => some (Ord.compare a b)
  | null, null => some .eq
  | _, _ => none

end DocStore.Value
