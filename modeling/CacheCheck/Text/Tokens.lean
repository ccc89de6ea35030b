/-!
What texts are read by: words between blanks, hexadecimal digits, and whole numbers in decimal.
Blank is what has the Unicode property White_Space.

A decimal number is read within bounds. The reader goes from left to right and reports the first
fault it meets: a character that is no digit, or a digit that takes the number past its bound. One
leading plus is allowed, leading zeros are allowed, nothing else is.
-/

set_option autoImplicit false

namespace CacheCheck

/-! ### Words -/

/-- A character with the property White_Space. -/
def isBlank (c : Char) : Bool :=
  let n := c.toNat
  (9 ≤ n && n ≤ 13) || n == 0x20 || n == 0x85 || n == 0xA0 || n == 0x1680 ||
    (0x2000 ≤ n && n ≤ 0x200A) || n == 0x2028 || n == 0x2029 || n == 0x202F || n == 0x205F ||
    n == 0x3000

/-- The maximal runs of characters that are not blank, in order. -/
def words (s : String) : List String :=
  ((s.toList.splitOnP isBlank).filter (!·.isEmpty)).map String.ofList

/-! ### Hexadecimal digits -/

namespace Hexadecimal

/-- The value of a digit, in either case. -/
def digit? (c : Char) : Option Nat :=
  if c.isDigit then some (c.toNat - '0'.toNat)
  else if 'a' ≤ c ∧ c ≤ 'f' then some (c.toNat - 'a'.toNat + 10)
  else if 'A' ≤ c ∧ c ≤ 'F' then some (c.toNat - 'A'.toNat + 10)
  else none

/-- The value of a digit that is given by its byte. -/
def byteDigit? (b : UInt8) : Option Nat :=
  digit? (Char.ofNat b.toNat)

theorem digit?_digitChar {n : Nat} (h : n < 16) : digit? (Nat.digitChar n) = some n := by
  have hall : ∀ n, n < 16 → digit? (Nat.digitChar n) = some n := by decide
  exact hall n h

end Hexadecimal

/-! ### Decimal numbers -/

namespace Decimal

/-- Why a text is no number within bounds. -/
inductive Fault
  | empty
  | badDigit
  | tooLarge
  | tooSmall
  deriving DecidableEq, Repr

/-- The wording of a fault. -/
def Fault.message : Fault → String
  | .empty => "cannot parse integer from empty string"
  | .badDigit => "invalid digit found in string"
  | .tooLarge => "number too large to fit in target type"
  | .tooSmall => "number too small to fit in target type"

/-- Reads the remaining digits of a number whose digits so far are worth `value`. -/
def digits (limit value : Nat) : List Char → Except Fault Nat
  | [] => .ok value
  | c :: rest =>
    if c.isDigit then
      let value := value * 10 + (c.toNat - '0'.toNat)
      if value ≤ limit then digits limit value rest else .error .tooLarge
    else .error .badDigit

/-- A number from zero to `limit`. -/
def unsigned (limit : Nat) : List Char → Except Fault Nat
  | [] => .error .empty
  | '+' :: [] => .error .badDigit
  | '+' :: rest => digits limit 0 rest
  | chars => digits limit 0 chars

/-- A number from `-(limit + 1)` to `limit`. -/
def signed (limit : Nat) : List Char → Except Fault Int
  | [] => .error .empty
  | '-' :: [] => .error .badDigit
  | '-' :: rest =>
    match digits (limit + 1) 0 rest with
    | .ok n => .ok (-(n : Int))
    | .error .tooLarge => .error .tooSmall
    | .error fault => .error fault
  | chars =>
    match unsigned limit chars with
    | .ok n => .ok (n : Int)
    | .error fault => .error fault

/-- The largest number of 16, 32 and 64 bits, and the largest signed one of 64. -/
def max16 : Nat := Nat.pow 2 16 - 1
@[inherit_doc max16] def max32 : Nat := Nat.pow 2 32 - 1
@[inherit_doc max16] def max64 : Nat := Nat.pow 2 64 - 1
@[inherit_doc max16] def maxSigned64 : Nat := Nat.pow 2 63 - 1

end Decimal

end CacheCheck
