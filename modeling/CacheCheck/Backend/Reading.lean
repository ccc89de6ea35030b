import CacheCheck.Failure
import CacheCheck.Json
import CacheCheck.Number.Binary64
import CacheCheck.Text.Tokens
import CacheCheck.Text.Utf8

/-!
Reading the name of a backend: as plain text in either case, or from JSON, where it is a string
or the one key of an object whose value is null. The JSON reader stops at its first complaint and
says where it stood, in lines and in bytes of a line.
-/

set_option autoImplicit false

namespace CacheCheck

/-- Reads a backend by name, in either case. -/
def Backend.parse (s : String) : Except Failure Backend :=
  match Backend.ofName? (asciiLower s) with
  | some backend => .ok backend
  | none => .error (.configuration ("unknown backend " ++ quote s))

namespace Backend.Reading

/-- A place in a text: what is left, and how many lines and bytes came before. -/
structure Cursor where
  line : Nat
  column : Nat
  rest : List UInt8
  deriving DecidableEq, Repr

namespace Cursor

def start (text : String) : Cursor :=
  ⟨1, 0, Utf8.encode text⟩

/-- The place after the next byte, or the same place at the end. -/
def next (c : Cursor) : Cursor :=
  match c.rest with
  | [] => c
  | b :: rest => if b = 0x0A then ⟨c.line + 1, 0, rest⟩ else ⟨c.line, c.column + 1, rest⟩

def skip (c : Cursor) : Nat → Cursor
  | 0 => c
  | n + 1 => c.next.skip n

/-- The place of the first byte that is no blank. -/
def skipBlank (c : Cursor) : Cursor :=
  c.skip (c.rest.takeWhile fun b ↦ b = 0x20 || b = 0x0A || b = 0x09 || b = 0x0D).length

end Cursor

/-- What a reader can object to. -/
inductive Complaint
  | expectedValue
  | expectedColon
  | expectedIdent
  | endInValue
  | endInString
  | endInObject
  | controlCharacter
  | invalidEscape
  | loneSurrogate
  | endOfHexEscape
  | invalidNumber
  | numberOutOfRange
  | trailingCharacters
  | unknownVariant (name : String)
  | invalidType (found wanted : String)
  deriving DecidableEq, Repr

def Complaint.message : Complaint → String
  | .expectedValue => "expected value"
  | .expectedColon => "expected `:`"
  | .expectedIdent => "expected ident"
  | .endInValue => "EOF while parsing a value"
  | .endInString => "EOF while parsing a string"
  | .endInObject => "EOF while parsing an object"
  | .controlCharacter => "control character (\\u0000-\\u001F) found while parsing a string"
  | .invalidEscape => "invalid escape"
  | .loneSurrogate => "lone leading surrogate in hex escape"
  | .endOfHexEscape => "unexpected end of hex escape"
  | .invalidNumber => "invalid number"
  | .numberOutOfRange => "number out of range"
  | .trailingCharacters => "trailing characters"
  | .unknownVariant name =>
    "unknown variant `" ++ name ++ "`, expected one of " ++
      ", ".intercalate (Backend.all.map fun backend ↦ "`" ++ backend.name ++ "`")
  | .invalidType found wanted => "invalid type: " ++ found ++ ", expected " ++ wanted

/-- A complaint and where it was raised. -/
structure Problem where
  complaint : Complaint
  line : Nat
  column : Nat
  deriving DecidableEq, Repr

def Problem.message (p : Problem) : String :=
  p.complaint.message ++ " at line " ++ toString p.line ++ " column " ++ toString p.column

/-- Complains about what has been read. -/
def complain {α : Type} (c : Cursor) (complaint : Complaint) : Except Problem α :=
  .error ⟨complaint, c.line, c.column⟩

/-- Complains about the next byte. -/
def complainAhead {α : Type} (c : Cursor) (complaint : Complaint) : Except Problem α :=
  complain c.next complaint

def isDigit (b : UInt8) : Bool :=
  0x30 ≤ b && b ≤ 0x39

/-- Reads the given letters. -/
def letters : List UInt8 → Cursor → Except Problem (Unit × Cursor)
  | [], c => .ok ((), c)
  | wanted :: more, c =>
    match c.rest with
    | [] => complain c .endInValue
    | b :: _ => if b = wanted then letters more c.next else complain c.next .expectedIdent

/-- The value of four hexadecimal digits. -/
def hex4 (c : Cursor) : Except Problem (Nat × Cursor) :=
  match c.rest with
  | a :: b :: d :: e :: _ =>
    let value := [a, b, d, e].foldlM (fun n x ↦ do return n * 16 + (← Hexadecimal.byteDigit? x)) 0
    match value with
    | some n => .ok (n, c.skip 4)
    | none => complain (c.skip 4) .invalidEscape
  | rest => complain (c.skip rest.length) .endInString

/-- Reads one given byte of the mark between the halves of a surrogate pair. -/
def pairMark (wanted : UInt8) (c : Cursor) : Except Problem (Unit × Cursor) :=
  match c.rest with
  | [] => complain c .endInString
  | b :: _ => if b = wanted then .ok ((), c.next) else complain c.next .endOfHexEscape

/-- The character of a hexadecimal escape, of which the mark has been read. -/
def hexEscape (c : Cursor) : Except Problem (Char × Cursor) := do
  let (n, c) ← hex4 c
  if 0xDC00 ≤ n ∧ n ≤ 0xDFFF then complain c .loneSurrogate
  else if n < 0xD800 ∨ 0xDBFF < n then .ok (Char.ofNat n, c)
  else
    let (_, c) ← pairMark 0x5C c
    let (_, c) ← pairMark 0x75 c
    let (m, c) ← hex4 c
    if m < 0xDC00 ∨ 0xDFFF < m then complain c .loneSurrogate
    else .ok (Char.ofNat ((n - 0xD800) * 0x400 + (m - 0xDC00) + 0x10000), c)

/-- The character of an escape, of which the backslash has been read. -/
def escaped (c : Cursor) : Except Problem (Char × Cursor) :=
  match c.rest with
  | [] => complain c .endInString
  | b :: _ =>
    match Char.ofNat b.toNat with
    | '"' => .ok ('"', c.next)
    | '\\' => .ok ('\\', c.next)
    | '/' => .ok ('/', c.next)
    | 'b' => .ok ('\x08', c.next)
    | 'f' => .ok ('\x0c', c.next)
    | 'n' => .ok ('\n', c.next)
    | 'r' => .ok ('\r', c.next)
    | 't' => .ok ('\t', c.next)
    | 'u' => hexEscape c.next
    | _ => complain c.next .invalidEscape

/-- The bytes of a string up to its closing quote. Every round reads at least one byte. -/
def stringBytes : Nat → List UInt8 → Cursor → Except Problem (List UInt8 × Cursor)
  | 0, _, c => complain c .endInString
  | fuel + 1, read, c =>
    match c.rest with
    | [] => complain c .endInString
    | b :: _ =>
      if b = 0x22 then .ok (read.reverse, c.next)
      else if b = 0x5C then do
        let (char, c) ← escaped c.next
        stringBytes fuel ((String.utf8EncodeChar char).reverse ++ read) c
      else if b < 0x20 then complain c.next .controlCharacter
      else stringBytes fuel (b :: read) c.next

/-- A string, of which the opening quote has been read. -/
def stringBody (c : Cursor) : Except Problem (String × Cursor) := do
  let (bytes, c) ← stringBytes (c.rest.length + 1) [] c
  .ok (Utf8.decodeLossy bytes, c)

/-- The digits at a place, and the place after them. -/
def digitRun (c : Cursor) : List Nat × Cursor :=
  let digits := c.rest.takeWhile isDigit
  (digits.map fun b ↦ b.toNat - 0x30, c.skip digits.length)

/-- The number that digits make, behind those of another number. -/
def append (n : Nat) (digits : List Nat) : Nat :=
  digits.foldl (fun n d ↦ n * 10 + d) n

/-- How many digits of an exponent can be read before it exceeds 31 bits. -/
def exponentRoom : Nat → List Nat → Nat
  | _, [] => 0
  | n, d :: rest => if n * 10 + d < Nat.pow 2 31 then exponentRoom (n * 10 + d) rest + 1 else 0

/-- Ends a number that is not whole. -/
def scientific (negative : Bool) (significand : Nat) (power : Int) (c : Cursor) :
    Except Problem (String × Cursor) :=
  match Binary64.ofScientific? negative significand power with
  | some x => .ok ("floating point `" ++ x.text Json.numberLayout ++ "`", c)
  | none => complain c .numberOutOfRange

/-- Reads the exponent of a number, of which the `e` has been read. -/
def exponentPart (negative : Bool) (significand : Nat) (power : Int) (c : Cursor) :
    Except Problem (String × Cursor) :=
  let (down, c) :=
    match c.rest with
    | 0x2B :: _ => (false, c.next)
    | 0x2D :: _ => (true, c.next)
    | _ => (false, c)
  match c.rest with
  | [] => complain c .endInValue
  | b :: _ =>
    if isDigit b then
      let (digits, after) := digitRun c
      let room := exponentRoom 0 digits
      if room = digits.length then
        let n := append 0 digits
        scientific negative significand (if down then power - n else power + n) after
      else if significand ≠ 0 ∧ !down then complain (c.skip (room + 1)) .numberOutOfRange
      else scientific negative 0 0 after
    else complain c.next .invalidNumber

/-- Reads an exponent if there is one. -/
def exponentOrEnd (negative : Bool) (significand : Nat) (power : Int) (c : Cursor) :
    Except Problem (String × Cursor) :=
  match c.rest with
  | 0x65 :: _ | 0x45 :: _ => exponentPart negative significand power c.next
  | _ => scientific negative significand power c

/-- Reads the decimal places of a number, of which the point has been read. -/
def places (negative : Bool) (significand : Nat) (c : Cursor) :
    Except Problem (String × Cursor) :=
  match digitRun c with
  | ([], _) => complainAhead c (if c.rest.isEmpty then .endInValue else .invalidNumber)
  | (digits, after) =>
    exponentOrEnd negative (append significand digits) (-digits.length) after

/-- Reads a number, of which a minus sign has been read, and says what it is. -/
def number (negative : Bool) (c : Cursor) : Except Problem (String × Cursor) :=
  match c.rest with
  | [] => complain c .endInValue
  | b :: _ =>
    if isDigit b then
      let (digits, after) := digitRun c
      if b = 0x30 ∧ 1 < digits.length then complainAhead c.next .invalidNumber
      else
        let n := append 0 digits
        match after.rest with
        | 0x2E :: _ => places negative n after.next
        | 0x65 :: _ | 0x45 :: _ => exponentPart negative n 0 after.next
        | _ =>
          if Decimal.max64 < n ∨ (negative ∧ (n = 0 ∨ Nat.pow 2 63 < n)) then
            scientific negative n 0 after
          else .ok ("integer `" ++ (if negative then "-" else "") ++ toString n ++ "`", after)
    else complain c.next .invalidNumber

/-- Complains that a value of another type was wanted, after reading as much of the value as it
takes to name it. -/
def wrongType {α : Type} (wanted : String) (c : Cursor) : Except Problem α :=
  let found (step : Except Problem (String × Cursor)) : Except Problem α := do
    let (what, c) ← step
    complain c (.invalidType what wanted)
  match c.rest with
  | [] => complainAhead c .expectedValue
  | b :: _ =>
    match Char.ofNat b.toNat with
    | 'n' => found do
      let (_, c) ← letters [0x75, 0x6C, 0x6C] c.next
      .ok ("null", c)
    | 't' => found do
      let (_, c) ← letters [0x72, 0x75, 0x65] c.next
      .ok ("boolean `true`", c)
    | 'f' => found do
      let (_, c) ← letters [0x61, 0x6C, 0x73, 0x65] c.next
      .ok ("boolean `false`", c)
    | '-' => found (number true c.next)
    | '"' => found do
      let (s, c) ← stringBody c.next
      .ok ("string " ++ quote s, c)
    | '[' => complain c (.invalidType "sequence" wanted)
    | '\x7b' => complain c (.invalidType "map" wanted)
    | _ => if isDigit b then found (number false c) else complainAhead c .expectedValue

/-- Reads the name of a backend in quotes. -/
def variantName (c : Cursor) : Except Problem (Backend × Cursor) :=
  let c := c.skipBlank
  match c.rest with
  | [] => complainAhead c .endInValue
  | 0x22 :: _ => do
    let (name, c) ← stringBody c.next
    match Backend.ofName? name with
    | some backend => .ok (backend, c)
    | none => complain c (.unknownVariant name)
  | _ => wrongType "variant identifier" c

/-- Reads the value null. -/
def unit (c : Cursor) : Except Problem (Unit × Cursor) :=
  let c := c.skipBlank
  match c.rest with
  | [] => complainAhead c .endInValue
  | 0x6E :: _ => letters [0x75, 0x6C, 0x6C] c.next
  | _ => wrongType "unit" c

def colon (c : Cursor) : Except Problem (Unit × Cursor) :=
  let c := c.skipBlank
  match c.rest with
  | [] => complainAhead c .endInObject
  | 0x3A :: _ => .ok ((), c.next)
  | _ => complainAhead c .expectedColon

/-- Reads a backend, as a string or as an object. -/
def value (c : Cursor) : Except Problem (Backend × Cursor) :=
  let c := c.skipBlank
  match c.rest with
  | [] => complainAhead c .endInValue
  | 0x22 :: _ => variantName c
  | 0x7B :: _ => do
    let (backend, c) ← variantName c.next
    let (_, c) ← colon c
    let (_, c) ← unit c
    let c := c.skipBlank
    match c.rest with
    | [] => complain c .endInObject
    | 0x7D :: _ => .ok (backend, c.next)
    | _ => complain c .expectedValue
  | _ => complainAhead c .expectedValue

end Backend.Reading

/-- The JSON text of a backend. -/
def Backend.toJson (backend : Backend) : String :=
  "\"" ++ backend.name ++ "\""

open Backend.Reading in
/-- Reads a backend from a whole JSON text. -/
def Backend.ofJson (text : String) : Except Problem Backend := do
  let (backend, c) ← value (Cursor.start text)
  let c := c.skipBlank
  if c.rest.isEmpty then .ok backend else complainAhead c .trailingCharacters

end CacheCheck
