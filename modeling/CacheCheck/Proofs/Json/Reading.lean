import CacheCheck.Json
import CacheCheck.Text.Tokens

/-!
A reader of JSON texts, for documents without truth values. It goes from left to right and hands on
what is left of the text. Blanks may stand around every value, name and mark; a string may use every
escape of the language, pairs of surrogates among them; a number is kept as the text it was read
from, once that text has been checked. Nothing is allowed that the language forbids: no comma before
a closing bracket, no control character in a string, no zero in front of other digits.

Each call is given the number of further calls that it may lead to. Three for each character of the
text are enough, since of any three calls in a row one takes a character.
-/

set_option autoImplicit false

namespace CacheCheck.Json

/-! ### Strings -/

def isBlank (c : Char) : Bool :=
  c = ' ' || c = '\n' || c = '\r' || c = '\t'

def skipBlanks (chars : List Char) : List Char :=
  chars.dropWhile isBlank

/-- The number that four hexadecimal digits make. -/
def readHex4 : List Char → Option (Nat × List Char)
  | a :: b :: c :: d :: rest => do
    let a ← Hexadecimal.digit? a
    let b ← Hexadecimal.digit? b
    let c ← Hexadecimal.digit? c
    let d ← Hexadecimal.digit? d
    some (a * 4096 + b * 256 + c * 16 + d, rest)
  | _ => none

/-- The character of a number, or of a pair of surrogates. One of a pair stands for nothing when it
stands alone. -/
def readUnicode (chars : List Char) : Option (Char × List Char) := do
  let (high, rest) ← readHex4 chars
  if high < 0xD800 ∨ 0xDFFF < high then some (Char.ofNat high, rest)
  else if 0xDBFF < high then none
  else
    match rest with
    | '\\' :: 'u' :: rest =>
      let (low, rest) ← readHex4 rest
      if 0xDC00 ≤ low ∧ low ≤ 0xDFFF then
        some (Char.ofNat (0x10000 + (high - 0xD800) * 0x400 + (low - 0xDC00)), rest)
      else none
    | _ => none

/-- The characters that an escape of one letter stands for. -/
def shortEscapes : List (Char × Char) :=
  [('"', '"'), ('\\', '\\'), ('/', '/'), ('b', '\x08'), ('f', '\x0c'), ('n', '\n'), ('r', '\r'),
    ('t', '\t')]

/-- One character of a string, which is neither a closing quote nor a control character. -/
def readCharacter : List Char → Option (Char × List Char)
  | [] => none
  | '\\' :: 'u' :: rest => readUnicode rest
  | '\\' :: letter :: rest => (shortEscapes.lookup letter).map fun c ↦ (c, rest)
  | c :: rest => if c = '\\' ∨ c = '"' ∨ c.toNat < 0x20 then none else some (c, rest)

example : readCharacter ['\\', 'u', 'd', '8', '3', 'd', '\\', 'u', 'D', 'E', '0', '0'] =
    some ('😀', []) := by decide

/-- The characters up to a closing quote. -/
def readCharacters (calls : Nat) (chars : List Char) : Option (List Char × List Char) :=
  match calls with
  | 0 => none
  | calls + 1 =>
    match chars with
    | '"' :: rest => some ([], rest)
    | chars => do
      let (c, rest) ← readCharacter chars
      let (cs, rest) ← readCharacters calls rest
      some (c :: cs, rest)

/-- A string, from its opening quote on. -/
def readString (calls : Nat) : List Char → Option (String × List Char)
  | '"' :: rest => (readCharacters calls rest).map fun (cs, rest) ↦ (String.ofList cs, rest)
  | _ => none

/-! ### Numbers -/

def isNumberChar (c : Char) : Bool :=
  c.isDigit || c = '-' || c = '+' || c = '.' || c = 'e' || c = 'E'

def isDigits (chars : List Char) : Bool :=
  !chars.isEmpty && chars.all Char.isDigit

/-- Digits that do not begin with a zero, unless that is all there is. -/
def isWhole (chars : List Char) : Bool :=
  isDigits chars && (chars = ['0'] || chars.head? ≠ some '0')

def withoutSign : List Char → List Char
  | '+' :: digits | '-' :: digits => digits
  | digits => digits

/-- Nothing, or an exponent, which may have a sign. -/
def isExponent : List Char → Bool
  | [] => true
  | mark :: rest => (mark = 'e' || mark = 'E') && isDigits (withoutSign rest)

/-- What may stand behind the whole part of a number. -/
def isFraction : List Char → Bool
  | '.' :: rest =>
    isDigits (rest.takeWhile Char.isDigit) && isExponent (rest.dropWhile Char.isDigit)
  | rest => isExponent rest

def isMagnitude (chars : List Char) : Bool :=
  isWhole (chars.takeWhile Char.isDigit) && isFraction (chars.dropWhile Char.isDigit)

/-- The numbers of the language: a sign or none, a whole part, a fraction or none, an exponent or
none. -/
def isNumber : List Char → Bool
  | '-' :: rest => isMagnitude rest
  | rest => isMagnitude rest

/-- A number, which ends where no character of a number follows. -/
def readNumber (chars : List Char) : Option (Json × List Char) :=
  let text := chars.takeWhile isNumberChar
  if isNumber text then some (.number (String.ofList text), chars.dropWhile isNumberChar) else none

/-! ### Values -/

mutual

/-- A value, and the blanks in front of it. -/
def readValue (calls : Nat) (chars : List Char) : Option (Json × List Char) :=
  match calls with
  | 0 => none
  | calls + 1 =>
    match skipBlanks chars with
    | '"' :: rest => (readString calls ('"' :: rest)).map fun (s, rest) ↦ (.string s, rest)
    | '[' :: rest => (readItems calls rest).map fun (items, rest) ↦ (.array items, rest)
    | '\x7b' :: rest => (readMembers calls rest).map fun (members, rest) ↦ (.object members, rest)
    | 'n' :: 'u' :: 'l' :: 'l' :: rest => some (.null, rest)
    | chars => readNumber chars

/-- The items of an array, from behind its bracket on. -/
def readItems (calls : Nat) (chars : List Char) : Option (List Json × List Char) :=
  match calls with
  | 0 => none
  | calls + 1 =>
    match skipBlanks chars with
    | ']' :: rest => some ([], rest)
    | chars => readSomeItems calls chars

/-- An item and those behind it, with the closing bracket. -/
def readSomeItems (calls : Nat) (chars : List Char) : Option (List Json × List Char) :=
  match calls with
  | 0 => none
  | calls + 1 => do
    let (item, rest) ← readValue calls chars
    match skipBlanks rest with
    | ']' :: rest => some ([item], rest)
    | ',' :: rest =>
      let (items, rest) ← readSomeItems calls rest
      some (item :: items, rest)
    | _ => none

/-- The members of an object, from behind its brace on. -/
def readMembers (calls : Nat) (chars : List Char) : Option (List (String × Json) × List Char) :=
  match calls with
  | 0 => none
  | calls + 1 =>
    match skipBlanks chars with
    | '\x7d' :: rest => some ([], rest)
    | chars => readSomeMembers calls chars

/-- A member and those behind it, with the closing brace. -/
def readSomeMembers (calls : Nat) (chars : List Char) :
    Option (List (String × Json) × List Char) :=
  match calls with
  | 0 => none
  | calls + 1 => do
    let (name, rest) ← readString calls (skipBlanks chars)
    match skipBlanks rest with
    | ':' :: rest =>
      let (value, rest) ← readValue calls rest
      match skipBlanks rest with
      | '\x7d' :: rest => some ([(name, value)], rest)
      | ',' :: rest =>
        let (members, rest) ← readSomeMembers calls rest
        some ((name, value) :: members, rest)
      | _ => none
    | _ => none

end

example : (readValue 12 ['[', '1', ',', ']']).isNone = true := by decide

/-- Reads a document: one value, with nothing but blanks behind it. -/
def parse? (text : String) : Option Json :=
  match readValue (3 * text.length + 3) text.toList with
  | some (value, rest) => if (skipBlanks rest).isEmpty then some value else none
  | none => none

end CacheCheck.Json
