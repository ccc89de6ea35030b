import CacheCheck.Text.Tokens

/-!
IPv6 addresses: eight pieces of sixteen bits. Reading accepts one gap of zero pieces, written as
two colons, and a dotted address in place of the last two pieces. Writing puts the gap where the
longest run of at least two zero pieces begins, the first of them where several are longest.
-/

set_option autoImplicit false

namespace CacheCheck.Url

/-- An address as its eight pieces. -/
structure Ipv6 where
  pieces : List Nat
  deriving DecidableEq, Repr

namespace Ipv6

/-- Up to four hexadecimal digits and what follows them. -/
def piece : Nat → Nat → List Char → Nat × List Char
  | more + 1, value, c :: rest =>
    match Hexadecimal.digit? c with
    | some d => piece more (value * 16 + d) rest
    | none => (value, c :: rest)
  | _, value, rest => (value, rest)

/-- One number of a dotted address: at most 255, without leading zeros. -/
def dottedPart? (digits : List Char) : Option Nat :=
  let value := Nat.ofDigitChars 10 digits 0
  if digits.isEmpty || !digits.all Char.isDigit || (1 < digits.length && digits.head? = some '0')
      || 3 < digits.length || 255 < value then none
  else some value

/-- The two pieces that a dotted address stands for. -/
def dotted? (chars : List Char) : Option (List Nat) :=
  match (chars.splitOn '.').mapM dottedPart? with
  | some [a, b, c, d] => some [a * 256 + b, c * 256 + d]
  | _ => none

/-- The pieces of an address as they are read, and the place of its gap among them. -/
structure Draft where
  pieces : List Nat := []
  gap : Option Nat := none

/-- Reads pieces while there is room for them. A gap takes the room of one piece. -/
def readPieces : Nat → Draft → List Char → Option Draft
  | _, p, [] => some p
  | 0, _, _ => none
  | room + 1, p, ':' :: rest =>
    match p.gap with
    | some _ => none
    | none => readPieces room ⟨p.pieces ++ [0], some (p.pieces.length + 1)⟩ rest
  | room + 1, p, chars =>
    match piece 4 0 chars with
    | (value, []) => some { p with pieces := p.pieces ++ [value] }
    | (value, ':' :: next :: rest) =>
      readPieces room { p with pieces := p.pieces ++ [value] } (next :: rest)
    | (_, '.' :: _) =>
      if p.pieces.length ≤ 6 then
        (dotted? chars).map fun last ↦ { p with pieces := p.pieces ++ last }
      else none
    | _ => none

/-- Fills the gap up to eight pieces. -/
def Draft.close (p : Draft) : Option Ipv6 :=
  match p.gap with
  | some gap =>
    if p.pieces.length ≤ 8 then
      some ⟨p.pieces.take gap ++ List.replicate (8 - p.pieces.length) 0 ++ p.pieces.drop gap⟩
    else none
  | none => if p.pieces.length = 8 then some ⟨p.pieces⟩ else none

/-- Reads an address. -/
def parse? (chars : List Char) : Option Ipv6 :=
  match chars with
  | [] | [_] => none
  | ':' :: ':' :: rest => (readPieces 7 ⟨[0], some 1⟩ rest).bind Draft.close
  | ':' :: _ => none
  | chars => (readPieces 8 {} chars).bind Draft.close

/-- The length of the run of zeros at the front. -/
def zeros (pieces : List Nat) : Nat :=
  (pieces.takeWhile (· = 0)).length

/-- The start and length of the longest run of zeros, the first of several. -/
def longestRun : Nat → List Nat → Nat × Nat
  | _, [] => (0, 0)
  | start, pieces@(_ :: rest) =>
    let here := zeros pieces
    let later := longestRun (start + 1) rest
    if here ≠ 0 ∧ later.2 ≤ here then (start, here) else later

def hexText (pieces : List Nat) : String :=
  ":".intercalate (pieces.map fun n ↦ String.ofList (Nat.toDigits 16 n))

/-- Writes an address. One that stands for an IPv4 address ends in dotted form. -/
def text (address : Ipv6) : String :=
  match address.pieces with
  | [0, 0, 0, 0, 0, 0xFFFF, a, b] =>
    "::ffff:" ++ ".".intercalate ([a / 256, a % 256, b / 256, b % 256].map toString)
  | pieces =>
    let (start, length) := longestRun 0 pieces
    if 1 < length then
      hexText (pieces.take start) ++ "::" ++ hexText (pieces.drop (start + length))
    else hexText pieces

end Ipv6

end CacheCheck.Url
