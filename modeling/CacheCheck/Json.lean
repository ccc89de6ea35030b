import CacheCheck.Number.Shortest

/-!
JSON values and their indented text. Numbers are kept as the text they are written with; members
keep their order. Every item and member stands on a line of its own, two spaces deeper than its
bracket; an empty array or object closes on the line it opens on.
-/

set_option autoImplicit false

namespace CacheCheck

inductive Json
  | null
  | number (text : String)
  | string (text : String)
  | array (items : List Json)
  | object (members : List (String × Json))
  deriving Inhabited

namespace Json

/-- Four hexadecimal digits. -/
def hex4 (n : Nat) : List Char :=
  [n / 4096 % 16, n / 256 % 16, n / 16 % 16, n % 16].map Nat.digitChar

/-- One character inside a string: the quote, the backslash and control characters are escaped. -/
def escape (c : Char) : List Char :=
  if c = '"' then ['\\', '"']
  else if c = '\\' then ['\\', '\\']
  else if c = '\n' then ['\\', 'n']
  else if c = '\r' then ['\\', 'r']
  else if c = '\t' then ['\\', 't']
  else if c = '\x08' then ['\\', 'b']
  else if c = '\x0c' then ['\\', 'f']
  else if c.toNat < 0x20 then '\\' :: 'u' :: hex4 c.toNat
  else [c]

/-- A text in quotes. -/
def quoted (s : String) : List Char :=
  '"' :: (s.toList.flatMap escape ++ ['"'])

/-- A line end and the indentation of the next line. -/
def newline (depth : Nat) : List Char :=
  '\n' :: List.replicate (2 * depth) ' '

mutual

/-- The text of a value whose line is indented `depth` times. -/
def layOut (depth : Nat) : Json → List Char
  | .null => ['n', 'u', 'l', 'l']
  | .number text => text.toList
  | .string text => quoted text
  | .array [] => ['[', ']']
  | .array (item :: items) =>
    '[' :: (newline (depth + 1) ++ layOut (depth + 1) item ++ layOutItems depth items)
  | .object [] => ['\x7b', '\x7d']
  | .object ((name, value) :: members) =>
    '\x7b' :: (newline (depth + 1) ++ quoted name ++ [':', ' '] ++ layOut (depth + 1) value ++
      layOutMembers depth members)

/-- The items after the first, and the closing bracket. -/
def layOutItems (depth : Nat) : List Json → List Char
  | [] => newline depth ++ [']']
  | item :: items =>
    ',' :: (newline (depth + 1) ++ layOut (depth + 1) item ++ layOutItems depth items)

/-- The members after the first, and the closing brace. -/
def layOutMembers (depth : Nat) : List (String × Json) → List Char
  | [] => newline depth ++ ['\x7d']
  | (name, value) :: members =>
    ',' :: (newline (depth + 1) ++ quoted name ++ [':', ' '] ++ layOut (depth + 1) value ++
      layOutMembers depth members)

end

/-- Numbers are positional from a hundred-thousandth up to sixteen digits before the point, which
whole numbers keep; any exponent is signed. -/
def numberLayout : Shortest.Layout where
  positional power := -5 ≤ power && power ≤ 15
  keepPoint := true
  plus := true
  tie := .toEven

/-- A floating-point number, or null for one that is not finite. -/
def ofBinary64 (x : Binary64) : Json :=
  match x with
  | .finite _ _ _ => .number (x.text numberLayout)
  | _ => .null

/-- A whole number. -/
def ofNat (n : Nat) : Json :=
  .number (toString n)

/-- The indented text of a document. -/
def pretty (value : Json) : String :=
  String.ofList (layOut 0 value)

end Json

end CacheCheck
