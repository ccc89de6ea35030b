import CacheCheck.Number.Binary64

/-!
The shortest decimal that reads back as a given floating-point number, and the layouts it is
written in. A decimal reads back when it lies in the interval of reals that round to the number;
the ends belong to the interval when the significand is even. On each decimal grid the two
neighbours of the number are tried, coarsest grid first.
-/

set_option autoImplicit false

namespace CacheCheck.Shortest

/-- The decimal `coefficient * 10 ^ exponent`. -/
structure Decimal where
  coefficient : Nat
  exponent : Int
  deriving DecidableEq, Repr

/-- The interval of a number, each bound as a numerator over one shared denominator. -/
structure Interval where
  low : Nat
  value : Nat
  high : Nat
  denominator : Nat
  closed : Bool

/-- The reals that round to `significand * 2 ^ exponent`. Halfway to each neighbour; the lower
neighbour is half as far where the step size changes. -/
def interval (significand : Nat) (exponent : Int) : Interval :=
  let below :=
    if significand = Binary64.hiddenBit ∧ Binary64.minExponent < exponent then 1 else 2
  let scale := Nat.pow 2 (exponent - 2).toNat
  { low := (4 * significand - below) * scale
    value := 4 * significand * scale
    high := (4 * significand + 2) * scale
    denominator := Nat.pow 2 (2 - exponent).toNat
    closed := significand % 2 = 0 }

/-- Whether `decimal` lies in the interval. -/
def Interval.contains (i : Interval) (decimal : Decimal) : Bool :=
  let point := decimal.coefficient * Nat.pow 10 decimal.exponent.toNat * i.denominator
  let unit := Nat.pow 10 (-decimal.exponent).toNat
  if i.closed then i.low * unit ≤ point && point ≤ i.high * unit
  else i.low * unit < point && point < i.high * unit

/-- Which of two decimals is taken for a number halfway between them. -/
inductive Tie
  | toEven
  | upward
  deriving DecidableEq, Repr

/-- The neighbour, on the grid of step `10 ^ exponent`, that reads back and is nearest. -/
def onGrid? (tie : Tie) (i : Interval) (exponent : Int) : Option Decimal :=
  let step := Nat.pow 10 exponent.toNat * i.denominator
  let point := i.value * Nat.pow 10 (-exponent).toNat
  let down : Decimal := ⟨point / step, exponent⟩
  let up : Decimal := ⟨point / step + 1, exponent⟩
  match i.contains down, i.contains up with
  | true, true =>
    if 2 * (point % step) < step then some down
    else if step < 2 * (point % step) then some up
    else if tie = .toEven ∧ down.coefficient % 2 = 0 then some down
    else some up
  | true, false => some down
  | false, true => some up
  | false, false => none

/-- A power of ten above the number, from the length of its significand in bits. -/
def ceilingExponent (significand : Nat) (exponent : Int) : Int :=
  ((significand.log2 : Int) + 1 + exponent) * 30103 / 100000 + 1

/-- The shortest decimal for a number other than zero. Twenty grids reach past seventeen digits,
which always suffice. -/
def decimal (tie : Tie) (significand : Nat) (exponent : Int) : Decimal :=
  let top := ceilingExponent significand exponent
  let i := interval significand exponent
  ((List.range 20).findSome? fun k : Nat ↦ onGrid? tie i (top - k)).getD ⟨0, 0⟩

/-- How a decimal is laid out. -/
structure Layout where
  /-- Which powers of ten, of the leading digit, are written without an exponent. -/
  positional : Int → Bool
  /-- Whether a whole number keeps a point and a zero. -/
  keepPoint : Bool
  /-- Whether an exponent that is not negative carries a plus. -/
  plus : Bool
  tie : Tie

/-- Digits with a point after the first `point` of them, filled up with zeros on either side. -/
def withPoint (keepPoint : Bool) (digits : List Char) (point : Int) : List Char :=
  let whole :=
    if point ≤ 0 then ['0']
    else digits.take point.toNat ++ List.replicate (point.toNat - digits.length) '0'
  let part :=
    if point ≤ 0 then List.replicate (-point).toNat '0' ++ digits else digits.drop point.toNat
  if part.isEmpty then (if keepPoint then whole ++ ['.', '0'] else whole)
  else whole ++ '.' :: part

/-- One digit before the point, and the power of ten behind an `e`. -/
def withExponent (plus : Bool) (digits : List Char) (power : Int) : List Char :=
  let mark := if power < 0 then ['-'] else if plus then ['+'] else []
  let lead :=
    match digits with
    | first :: second :: rest => first :: '.' :: second :: rest
    | short => short
  lead ++ 'e' :: mark ++ Nat.toDigits 10 power.natAbs

/-- The text of a magnitude. -/
def text (layout : Layout) (significand : Nat) (exponent : Int) : String :=
  let d := if significand = 0 then ⟨0, 0⟩ else decimal layout.tie significand exponent
  let digits := Nat.toDigits 10 d.coefficient
  let point := d.exponent + digits.length
  String.ofList <|
    if layout.positional (point - 1) then withPoint layout.keepPoint digits point
    else withExponent layout.plus digits (point - 1)

end CacheCheck.Shortest

/-- The text of a number in a given layout. -/
def CacheCheck.Binary64.text (layout : CacheCheck.Shortest.Layout) (x : CacheCheck.Binary64) :
    String :=
  x.sign ++
    match x with
    | .nan => "NaN"
    | .infinite _ => "inf"
    | .finite _ significand exponent => CacheCheck.Shortest.text layout significand exponent
