/-
JSON values, with the order of an object's entries kept.

Numbers without a fraction or an exponent are integers of any size, the others are floating point
numbers. An object is the list of its entries in order, each key once. Two values are the same
when they stand for the same data: numbers are compared by value, a truth value counts as the
number one or zero, and the order of entries does not matter.
-/
import DartDecoders.Number.Binary64

set_option autoImplicit false

namespace DartDecoders

/-- A JSON value. -/
inductive Json where
  | null
  | bool (value : Bool)
  | int (value : Int)
  | float (value : Binary64)
  | str (value : Text)
  | arr (items : List Json)
  | obj (entries : List (Text × Json))
  deriving Inhabited

namespace Json

/-! ## Objects -/

/-- The value of a key in a list of entries. -/
def lookup? (key : Text) : List (Text × Json) → Option Json
  | [] => none
  | (name, value) :: rest => if name == key then some value else lookup? key rest

/-- The entries with one more written: a key that is there keeps its place and takes the new
value, a new key goes last. -/
def insert (key : Text) (value : Json) : List (Text × Json) → List (Text × Json)
  | [] => [(key, value)]
  | (name, old) :: rest =>
    if name == key then (name, value) :: rest else (name, old) :: insert key value rest

/-- Reading a key back after writing it gives what was written. -/
theorem lookup?_insert_self (key : Text) (value : Json) (entries : List (Text × Json)) :
    lookup? key (insert key value entries) = some value := by
  induction entries with
  | nil => simp [insert, lookup?]
  | cons entry rest ih =>
    obtain ⟨name, old⟩ := entry
    by_cases h : name == key <;> simp [insert, lookup?, h, ih]

/-- Writing a key leaves the others as they were. -/
theorem lookup?_insert_of_ne {key other : Text} (h : other ≠ key) (value : Json)
    (entries : List (Text × Json)) :
    lookup? other (insert key value entries) = lookup? other entries := by
  induction entries with
  | nil => simp [insert, lookup?, Ne.symm h]
  | cons entry rest ih =>
    obtain ⟨name, old⟩ := entry
    by_cases hk : name == key
    · have hname : name = key := by simpa using hk
      simp [insert, lookup?, hname, Ne.symm h]
    · by_cases ho : name == other <;> simp [insert, lookup?, hk, ho, ih]

/-! ## Truth -/

/-- The values that count as false: null, false, zero, and the empty text, array and object. -/
def isTruthy : Json → Bool
  | .null => false
  | .bool value => value
  | .int value => value != 0
  | .float value => !value.isZero
  | .str value => !value.isEmpty
  | .arr items => !items.isEmpty
  | .obj entries => !entries.isEmpty

/-- The name of a value's kind in error messages. -/
def kindName : Json → Text
  | .null => "NoneType".toText
  | .bool _ => "bool".toText
  | .int _ => "int".toText
  | .float _ => "float".toText
  | .str _ => "str".toText
  | .arr _ => "list".toText
  | .obj _ => "dict".toText

/-! ## Sameness -/

/-- The integer that a truth value or an integer stands for. -/
def whole? : Json → Option Int
  | .bool value => some (if value then 1 else 0)
  | .int value => some value
  | _ => none

/-- A floating point number and a whole number of the same value. -/
def sameFloatInt (x : Binary64) (n : Int) : Bool :=
  x.units? == some (Binary64.unitsOfInt n)

/-- Two floating point numbers of the same value; what is not a number is the same as itself. -/
def sameFloat (x y : Binary64) : Bool :=
  x == y || (x.isZero && y.isZero)

mutual

/-- The two values stand for the same data. -/
def same : Json → Json → Bool
  | .null, .null => true
  | .bool a, other => other.whole? == some (if a then 1 else 0)
      || (match other with | .float y => sameFloatInt y (if a then 1 else 0) | _ => false)
  | .int a, other => other.whole? == some a
      || (match other with | .float y => sameFloatInt y a | _ => false)
  | .float x, .float y => sameFloat x y
  | .float x, other =>
    match other.whole? with
    | some n => sameFloatInt x n
    | none => false
  | .str a, .str b => a == b
  | .arr as, .arr bs => sameItems as bs
  | .obj as, .obj bs => as.length == bs.length && sameEntries as bs
  | _, _ => false

/-- The two lists hold the same values in the same order. -/
def sameItems : List Json → List Json → Bool
  | [], [] => true
  | a :: as, b :: bs => same a b && sameItems as bs
  | _, _ => false

/-- Every entry of the first list is in the second. -/
def sameEntries : List (Text × Json) → List (Text × Json) → Bool
  | [], _ => true
  | (key, value) :: rest, others =>
    (match lookup? key others with
      | some other => same value other
      | none => false)
      && sameEntries rest others

end

/-- The list holds a value that is the same. -/
def memberOf (value : Json) (values : List Json) : Bool :=
  values.any (same value)

/-- The values without those that are the same as an earlier one. -/
def distinct (values : List Json) : List Json :=
  (values.foldl (fun kept value => if memberOf value kept then kept else value :: kept) []).reverse

end Json

end DartDecoders
