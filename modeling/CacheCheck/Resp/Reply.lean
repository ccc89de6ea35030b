import CacheCheck.Number.Shortest
import CacheCheck.Redis.Fault
import CacheCheck.Text.Quoted
import CacheCheck.Text.Utf8

/-!
Replies of a Redis server, the errors hidden inside them, and the text that a caller who asked
for text is given.
-/

set_option autoImplicit false

namespace CacheCheck.Resp

/-- What a verbatim text says about its own format. -/
inductive VerbatimFormat
  | plain
  | markdown
  | unknown (name : String)
  deriving DecidableEq, Repr

inductive Reply
  | nil
  | okay
  | int (value : Int)
  | bulk (bytes : List UInt8)
  | simple (text : String)
  | double (value : Binary64)
  | boolean (value : Bool)
  | verbatim (format : VerbatimFormat) (text : String)
  | bigNumber (value : Int)
  | array (items : List Reply)
  | set (items : List Reply)
  | push (items : List Reply)
  | map (pairs : List (Reply × Reply))
  /-- A reply with remarks about it. -/
  | attribute (data : Reply) (attributes : List (Reply × Reply))
  | error (line : Redis.ErrorLine)
  deriving Inhabited

namespace VerbatimFormat

def ofName : String → VerbatimFormat
  | "txt" => .plain
  | "mkd" => .markdown
  | name => .unknown name

def display : VerbatimFormat → String
  | .plain => "Text"
  | .markdown => "Markdown"
  | .unknown name => "Unknown(" ++ quote name ++ ")"

end VerbatimFormat

namespace Reply

/-- A text as a reply; `none` is nil. -/
def ofText? : Option String → Reply
  | some text => .bulk (Utf8.encode text)
  | none => .nil

mutual

/-- The first error in a reply, in the order in which it was received. -/
def firstError? : Reply → Option Redis.ErrorLine
  | .array items | .set items | .push items => firstErrorIn? items
  | .map pairs => firstErrorAmong? pairs
  | .attribute data attributes => (firstError? data).or (firstErrorAmong? attributes)
  | .error line => some line
  | _ => none

def firstErrorIn? : List Reply → Option Redis.ErrorLine
  | [] => none
  | item :: items => (firstError? item).or (firstErrorIn? items)

def firstErrorAmong? : List (Reply × Reply) → Option Redis.ErrorLine
  | [] => none
  | (key, value) :: pairs =>
    ((firstError? key).or (firstError? value)).or (firstErrorAmong? pairs)

end

/-- How a double is shown: positional from a ten-thousandth below ten to the sixteenth. -/
def shownLayout : Shortest.Layout where
  positional power := -4 ≤ power && power < 16
  keepPoint := true
  plus := false
  tie := .upward

/-- How a double is given as text: always positional, without a point where it is whole. -/
def plainLayout : Shortest.Layout where
  positional _ := true
  keepPoint := false
  plus := false
  tie := .upward

/-- Texts in brackets with commas between them. -/
def bracketed (items : List String) : String :=
  "[" ++ ", ".intercalate items ++ "]"

mutual

/-- A reply as it is shown to a person. -/
def display : Reply → String
  | .nil => "nil"
  | .okay => "ok"
  | .int value => "int(" ++ toString value ++ ")"
  | .bulk bytes =>
    match Utf8.decode? bytes with
    | some text => "bulk-string('" ++ quote text ++ "')"
    | none => "binary-data(" ++ bracketed (bytes.map fun b ↦ toString b.toNat) ++ ")"
  | .simple text => "simple-string(" ++ quote text ++ ")"
  | .double value => "double(" ++ value.text shownLayout ++ ")"
  | .boolean value => "boolean(" ++ (if value then "true" else "false") ++ ")"
  | .verbatim format text => "verbatim-string(" ++ format.display ++ "," ++ quote text ++ ")"
  | .bigNumber value => "big-number(" ++ toString value ++ ")"
  | .array items => "array(" ++ bracketed (displayAll items) ++ ")"
  | .set items => "set(" ++ bracketed (displayAll items) ++ ")"
  | .push items => "push(Message, " ++ bracketed (displayAll items) ++ ")"
  | .map pairs => "map(" ++ bracketed (displayPairs pairs) ++ ")"
  | .attribute data _ => "attribute(" ++ data.display ++ ")"
  | .error line => "Server error: `" ++ line.text ++ "`"

def displayAll : List Reply → List String
  | [] => []
  | item :: items => item.display :: displayAll items

def displayPairs : List (Reply × Reply) → List String
  | [] => []
  | (key, value) :: pairs =>
    ("(" ++ key.display ++ ", " ++ value.display ++ ")") :: displayPairs pairs

end

/-- The reply that remarks were made about, one level down. -/
def bare : Reply → Reply
  | .attribute data _ => data
  | reply => reply

/-- A reply as text. -/
def toText (reply : Reply) : Except Redis.Fault String :=
  match reply.bare with
  | .bulk bytes =>
    match Utf8.decode? bytes with
    | some text => .ok text
    | none => .error (.described .type "Cannot convert from UTF-8" none)
  | .okay => .ok "OK"
  | .simple text | .verbatim _ text => .ok text
  | .double value => .ok (value.text plainLayout)
  | .int value => .ok (toString value)
  | other =>
    .error <| .described .type "Response was of incompatible type" <| some <|
      "\"Response type not string compatible.\" (response was " ++ other.display ++ ")"

/-- A reply as text, where nil is no text. -/
def toText? (reply : Reply) : Except Redis.Fault (Option String) :=
  match reply.bare with
  | .nil => .ok none
  | other => other.toText.map some

end Reply

end CacheCheck.Resp
