/-
Binary floating point numbers of 64 bits, in exact arithmetic.

A finite number is a sign, a natural mantissa and a power of two. A decimal is read as the number
nearest to it, a tie going to the even mantissa, and is written back with the fewest digits that
read as the same number. Both directions are done on natural numbers, so a statement about them
needs no fact about machine arithmetic.
-/
import DartDecoders.Text.Basic

set_option autoImplicit false

namespace DartDecoders

/-- A floating point number: no number, an infinity, or a signed mantissa times a power of two.
Finite numbers are normal: the mantissa has 53 bits, or the exponent is the least one. -/
inductive Binary64 where
  | nan
  | infinite (negative : Bool)
  | finite (negative : Bool) (mantissa : Nat) (exponent : Int)
  deriving DecidableEq, Inhabited

namespace Binary64

/-- The least exponent; numbers at it may have a short mantissa. -/
def minExponent : Int := -1074

/-- The greatest exponent of a finite number. -/
def maxExponent : Int := 971

/-! ## Reading -/

/-- The quotient rounded to the nearest natural number, a tie to the even one. -/
def roundEven (num den : Nat) : Nat :=
  let quotient := num / den
  let twice := 2 * (num % den)
  if twice < den then quotient
  else if twice > den then quotient + 1
  else if quotient % 2 == 0 then quotient else quotient + 1

/-- The quotient `num / (den * 2 ^ exponent)` as numerator and denominator. -/
def scaled (num den : Nat) (exponent : Int) : Nat × Nat :=
  (num * Nat.pow 2 (-exponent).toNat, den * Nat.pow 2 exponent.toNat)

/-- The number nearest to the quotient of two natural numbers. -/
def ofRatio (negative : Bool) (num den : Nat) : Binary64 :=
  if num == 0 then .finite negative 0 minExponent
  else
    let guess : Int := (num.log2 : Int) - den.log2 - 52
    -- the scaled quotient lies between 2 ^ 51 and 2 ^ 53, so the guess is at most one too high
    let (n, d) := scaled num den guess
    let exponent := max minExponent (if n / d < Nat.pow 2 52 then guess - 1 else guess)
    let (n, d) := scaled num den exponent
    let mantissa := roundEven n d
    -- rounding up may reach the next power of two
    let (mantissa, exponent) :=
      if mantissa == Nat.pow 2 53 then (Nat.pow 2 52, exponent + 1) else (mantissa, exponent)
    if exponent > maxExponent then .infinite negative else .finite negative mantissa exponent

/-- The number nearest to `digits * 10 ^ exponent`. Exponents far outside the range are answered
without writing the power out. -/
def ofDecimal (negative : Bool) (digits : Nat) (exponent : Int) : Binary64 :=
  let magnitude : Int := (Text.ofNat digits).length + exponent
  if digits == 0 || magnitude < -330 then .finite negative 0 minExponent
  else if magnitude > 310 then .infinite negative
  else ofRatio negative (digits * Nat.pow 10 exponent.toNat) (Nat.pow 10 (-exponent).toNat)

/-! ## Writing -/

/-- A decimal grid `10 ^ k` seen from a binary number: twice-halved mantissa units and grid steps
brought to one scale. -/
structure Grid where
  /-- What one quarter of a mantissa unit weighs. -/
  unit : Nat
  /-- What one step of the grid weighs. -/
  step : Nat

/-- The grid of the power `k` of ten beside the binary exponent. -/
def grid (exponent k : Int) : Grid where
  unit := Nat.pow 2 (exponent - 2).toNat * Nat.pow 10 (-k).toNat
  step := Nat.pow 2 (2 - exponent).toNat * Nat.pow 10 k.toNat

/-- The point of the grid that reads back as the number and is nearest to it, if there is one. The
numbers that read back form an interval, with its ends when the mantissa is even; below a power of
two the interval is half as wide. -/
def gridPoint? (mantissa : Nat) (exponent k : Int) : Option Nat :=
  let scale := grid exponent k
  let value := 4 * mantissa * scale.unit
  let low :=
    (if mantissa == Nat.pow 2 52 && exponent > minExponent then 4 * mantissa - 1
      else 4 * mantissa - 2) * scale.unit
  let high := (4 * mantissa + 2) * scale.unit
  let closed := mantissa % 2 == 0
  let hits (point : Nat) : Bool :=
    let weight := point * scale.step
    (low < weight && weight < high) || (closed && (weight == low || weight == high))
  -- if any point of the grid reads back, one of the value's two neighbours does
  let below := value / scale.step
  let above := below + 1
  match hits below, hits above with
  | true, true =>
    let down := value - below * scale.step
    let up := above * scale.step - value
    some (if down < up || (down == up && below % 2 == 0) then below else above)
  | true, false => some below
  | false, true => some above
  | false, false => none

/-- The coarsest of the grids from the power `k` of ten downwards that has such a point. -/
def coarsest? (mantissa : Nat) (exponent : Int) : Nat → Int → Option (Nat × Int)
  | 0, _ => none
  | tries + 1, k =>
    match gridPoint? mantissa exponent k with
    | some point => some (point, k)
    | none => coarsest? mantissa exponent tries (k - 1)

/-- The fewest digits that read back as the number, as a natural number and a power of ten. Grids
are tried from just above the number on; seventeen digits always suffice. -/
def shortest (mantissa : Nat) (exponent : Int) : Nat × Int :=
  if mantissa == 0 then (0, 0)
  else
    let top : Int := ((mantissa.log2 : Int) + 1 + exponent) * 30103 / 100000 + 2
    (coarsest? mantissa exponent 24 top).getD (mantissa, 0)

/-- How a number is laid out: digits are written positionally while the decimal point falls from
four places before the digits to sixteen places behind the first one; beyond that an exponent of
at least two figures is written with its sign. Whole numbers keep one zero behind the point. -/
def layout (digits : Chars) (point : Int) : Chars :=
  if -4 < point && point ≤ 16 then
    if point ≤ 0 then
      ['0', '.'] ++ List.replicate (-point).toNat '0' ++ digits
    else if digits.length ≤ point.toNat then
      digits ++ List.replicate (point.toNat - digits.length) '0' ++ ['.', '0']
    else
      digits.take point.toNat ++ '.' :: digits.drop point.toNat
  else
    let power := point - 1
    let figures := Nat.toDigits 10 power.natAbs
    let exponent := (if power < 0 then '-' else '+')
      :: List.replicate (2 - figures.length) '0' ++ figures
    let fraction := if digits.length ≤ 1 then [] else '.' :: digits.drop 1
    digits.take 1 ++ fraction ++ 'e' :: exponent

/-- The characters of a number. -/
def toChars : Binary64 → Chars
  | .nan => "nan".toList
  | .infinite negative => (if negative then ['-'] else []) ++ "inf".toList
  | .finite negative mantissa exponent =>
    let (digits, power) := shortest mantissa exponent
    let figures := Nat.toDigits 10 digits
    let point : Int := if mantissa == 0 then 1 else figures.length + power
    (if negative then ['-'] else []) ++ layout figures point

/-- The text of a number. -/
def toText (x : Binary64) : Text :=
  .ofChars x.toChars

/-! ## Comparison -/

/-- Zero of either sign. -/
def isZero : Binary64 → Bool
  | .finite _ mantissa _ => mantissa == 0
  | _ => false

/-- The value of a finite number in units of the least power of two. -/
def units? : Binary64 → Option Int
  | .finite negative mantissa exponent =>
    let magnitude : Int := mantissa * Nat.pow 2 (exponent - minExponent).toNat
    some (if negative then -magnitude else magnitude)
  | _ => none

/-- An integer in units of the least power of two. -/
def unitsOfInt (n : Int) : Int :=
  n * Nat.pow 2 (-minExponent).toNat

end Binary64

end DartDecoders
