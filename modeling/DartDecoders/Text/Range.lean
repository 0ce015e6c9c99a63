/-
Classes of characters as lists of inclusive code point ranges.

A character class of the Unicode standard is data. Each class here is one list of ranges, and
membership is one function over such a list, so a fact about a class is a fact about its list.
-/
set_option autoImplicit false

namespace DartDecoders

/-- Inclusive ranges of code points, lowest first. -/
abbrev CodeRanges := List (Nat × Nat)

/-- A code point belongs to the ranges when one of them holds it. -/
def CodeRanges.contains (ranges : CodeRanges) (code : Nat) : Bool :=
  ranges.any fun range => range.1 ≤ code && code ≤ range.2

end DartDecoders
