import CacheCheck.Text.Tokens
import CacheCheck.Text.Utf8

/-!
Percent-encoding. A percent sign with two hexadecimal digits stands for one byte; any other
percent sign stands for itself.
-/

set_option autoImplicit false

namespace CacheCheck.Percent

/-- The bytes a percent-encoded sequence stands for. -/
def decode : List UInt8 → List UInt8
  | 0x25 :: a :: b :: rest =>
    match Hexadecimal.byteDigit? a, Hexadecimal.byteDigit? b with
    | some hi, some lo => UInt8.ofNat (hi * 16 + lo) :: decode rest
    | _, _ => 0x25 :: decode (a :: b :: rest)
  | b :: rest => b :: decode rest
  | [] => []

/-- A byte as a percent sign and two upper-case digits. -/
def encodeByte (b : UInt8) : List Char :=
  ['%', (Nat.digitChar (b.toNat / 16)).toUpper, (Nat.digitChar (b.toNat % 16)).toUpper]

/-- Encodes the characters that are not kept. Only printable ASCII can be kept. -/
def encode (keep : Char → Bool) (chars : List Char) : List Char :=
  chars.flatMap fun c ↦
    if 0x20 ≤ c.toNat && c.toNat < 0x7F && keep c then [c]
    else (String.utf8EncodeChar c).flatMap encodeByte

/-- Encodes the control characters and everything above ASCII. -/
def encodeControls (chars : List Char) : List Char :=
  encode (fun _ ↦ true) chars

/-- Splits at the first occurrence of a byte; the second part is empty when there is none. -/
def cut (at_ : UInt8) (bytes : List UInt8) : List UInt8 × List UInt8 :=
  (bytes.takeWhile (· ≠ at_), (bytes.dropWhile (· ≠ at_)).drop 1)

/-- A component of a form: a plus is a space, percent signs are decoded, faults in the encoding
of characters are replaced. -/
def formText (bytes : List UInt8) : String :=
  Utf8.decodeLossy (decode (bytes.map fun b ↦ if b = 0x2B then 0x20 else b))

/-- The pairs of a form: parts between ampersands, empty ones left out, each split at its first
equals sign. -/
def formPairs (query : String) : List (String × String) :=
  (((Utf8.encode query).splitOn 0x26).filter (!·.isEmpty)).map fun part ↦
    let (name, value) := cut 0x3D part
    (formText name, formText value)

/-- The value of the last pair with the given name. -/
def lastValue? (pairs : List (String × String)) (name : String) : Option String :=
  (pairs.reverse.find? (·.1 = name)).map (·.2)

end CacheCheck.Percent
