/-
Code points.

A text is made of code points. Nearly all of them are characters; the others are the surrogates,
which come in pairs when characters are encoded and stand for nothing alone. No file holds a lone
surrogate, but the escapes of a JSON document can spell one, and then the text that it is in has no
encoding.
-/
set_option autoImplicit false

namespace DartDecoders

/-- A code point: a character, or a surrogate by its place among them. -/
inductive CodePoint where
  | ofChar (c : Char)
  | surrogate (n : Fin 0x800)
  deriving DecidableEq, Inhabited, Repr

namespace CodePoint

attribute [coe] ofChar

instance : Coe Char CodePoint :=
  ⟨ofChar⟩

/-- The number of a code point. -/
def toNat : CodePoint → Nat
  | ofChar c => c.toNat
  | surrogate n => 0xd800 + n

/-- The code point of a number. -/
def ofNat (code : Nat) : CodePoint :=
  if h : 0xd800 ≤ code ∧ code < 0xe000 then surrogate ⟨code - 0xd800, by omega⟩
  else ofChar (Char.ofNat code)

/-- A code point is known by its number. -/
theorem ofNat_toNat (c : CodePoint) : ofNat c.toNat = c := by
  cases c with
  | ofChar c =>
    -- no character has the number of a surrogate
    have hvalid : c.toNat < 0xd800 ∨ 0xdfff < c.toNat ∧ c.toNat < 0x110000 := c.valid
    rw [toNat, ofNat, dif_neg (by omega), Char.ofNat_toNat]
  | surrogate n =>
    have hn := n.isLt
    rw [toNat, ofNat, dif_pos ⟨by omega, by omega⟩]
    exact congrArg surrogate (Fin.ext (Nat.add_sub_cancel_left 0xd800 n))

/-- The figures from zero to nine. -/
def isDigit : CodePoint → Bool
  | ofChar c => c.isDigit
  | surrogate _ => false

/-- The letters from A to Z, large and small, and the figures from zero to nine. -/
def isAlphanum : CodePoint → Bool
  | ofChar c => c.isAlphanum
  | surrogate _ => false

end CodePoint

end DartDecoders
