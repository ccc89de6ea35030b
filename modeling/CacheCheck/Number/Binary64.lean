/-!
Floating-point numbers of the 64-bit binary format, taken apart into whole numbers. A finite one
is its significand times a power of two, so that its text can be chosen by exact arithmetic.

Rounding goes to the nearest, a half to the even neighbour: of a number to a fixed count of decimal
places, from its exact value, and of a fraction to the numbers of the format, where what is past the
largest becomes infinite.
-/

set_option autoImplicit false

namespace CacheCheck

/-- A number of the format. A finite one is `significand * 2 ^ exponent` under its sign. -/
inductive Binary64
  | nan
  | infinite (negative : Bool)
  | finite (negative : Bool) (significand : Nat) (exponent : Int)
  deriving DecidableEq, Repr, Inhabited

namespace Binary64

/-- The exponent of the smallest step between two numbers. -/
def minExponent : Int := -1074

/-- The significand's leading bit, which the encoding leaves out. -/
def hiddenBit : Nat := Nat.pow 2 52

def zero : Binary64 := .finite false 0 minExponent

/-- The sign mark, which zero keeps and which NaN lacks. -/
def sign : Binary64 → String
  | .nan => ""
  | .infinite negative | .finite negative _ _ => if negative then "-" else ""

/-- The magnitude of a finite number as a fraction. -/
def fraction (significand : Nat) (exponent : Int) : Nat × Nat :=
  (significand * Nat.pow 2 exponent.toNat, Nat.pow 2 (-exponent).toNat)

end CacheCheck.Binary64

/-! ### Decimal places -/

namespace CacheCheck.Fixed

/-- The quotient rounded to the nearest whole number, a half to the even one. -/
def roundDiv (numerator denominator : Nat) : Nat :=
  let quotient := numerator / denominator
  let twice := 2 * (numerator % denominator)
  if twice < denominator then quotient
  else if denominator < twice then quotient + 1
  else quotient + quotient % 2

/-- A magnitude with two places. -/
def twoPlaces (significand : Nat) (exponent : Int) : List Char :=
  let (numerator, denominator) := Binary64.fraction significand exponent
  let hundredths := roundDiv (100 * numerator) denominator
  Nat.toDigits 10 (hundredths / 100) ++
    ['.', Nat.digitChar (hundredths / 10 % 10), Nat.digitChar (hundredths % 10)]

end CacheCheck.Fixed

/-- A number with two places. The sign is kept even where every digit shown is zero. -/
def CacheCheck.Binary64.toFixed (x : CacheCheck.Binary64) : String :=
  x.sign ++
    match x with
    | .nan => "NaN"
    | .infinite _ => "inf"
    | .finite _ significand exponent => String.ofList (Fixed.twoPlaces significand exponent)

/-! ### Numbers nearest to fractions -/

namespace CacheCheck.Binary64

/-- The power of two that a number of about `numerator / denominator` has for its last bit: 53
bits of significand, or fewer next to zero. -/
def lastPlace (numerator denominator : Nat) : Int :=
  let guess := (numerator.log2 : Int) - denominator.log2 - 53
  let scaled := numerator * Nat.pow 2 (-guess).toNat
  let unit := denominator * Nat.pow 2 guess.toNat
  let step := if scaled < Nat.pow 2 53 * unit then guess else guess + 1
  max step minExponent

/-- The number nearest to a fraction. -/
def ofFraction (negative : Bool) (numerator denominator : Nat) : Binary64 :=
  let exponent := lastPlace numerator denominator
  let significand := Fixed.roundDiv (numerator * Nat.pow 2 (-exponent).toNat)
    (denominator * Nat.pow 2 exponent.toNat)
  if 971 < exponent ∨ (exponent = 971 ∧ Nat.pow 2 53 ≤ significand) then .infinite negative
  else if significand = Nat.pow 2 53 then .finite negative hiddenBit (exponent + 1)
  else .finite negative significand exponent

/-- The number nearest to `significand * 10 ^ power`; `none` past the largest number. Powers far
outside the range are settled by the count of digits alone. -/
def ofScientific? (negative : Bool) (significand : Nat) (power : Int) : Option Binary64 :=
  let leading := ((Nat.toDigits 10 significand).length : Int) + power
  if significand = 0 ∨ leading < -400 then some (.finite negative 0 minExponent)
  else if 400 < leading then none
  else
    let numerator := significand * Nat.pow 10 power.toNat
    match ofFraction negative numerator (Nat.pow 10 (-power).toNat) with
    | .infinite _ => none
    | x => some x

end CacheCheck.Binary64
