import CacheCheck.CommandLine.Problem
import CacheCheck.Memcached.Address
import CacheCheck.Redis.Address
import CacheCheck.Report.Format
import CacheCheck.Text.Tokens

/-!
What the words at one place have given. A flag sets its value once, but a flag whose value is a
list may be repeated, and adds to its list; each value of it is a list too, with commas between.
-/

set_option autoImplicit false

namespace CacheCheck.CommandLine

/-- The items of a list with commas between, empty ones included. -/
def splitList (text : String) : List String :=
  (text.toList.splitOn ',').map String.ofList

/-- The values given at one place. -/
structure Given where
  format : Option Format := none
  version : Option Resp.Version := none
  delay : Option Nat := none
  bulkCount : Option Nat := none
  url : Option String := none
  nodes : Option (List String) := none
  servers : Option (List String) := none
  wire : Option Memcached.Wire := none
  timeout : Option Nat := none
  keepGoing : Bool := false
  verbosity : Nat := 0
  deriving DecidableEq, Repr

/-- Reads the value of a flag; a failure's message is the reason that a value is bad. -/
def readNamed {α : Type} (flag : Flag) (parse : String → Except Failure α) (text : String) :
    Except Problem α :=
  match parse text with
  | .ok a => .ok a
  | .error failure => .error (.badValue flag.usage text failure.message)

@[inherit_doc readNamed]
def readNumber (flag : Flag) (text : String) : Except Problem Nat :=
  match Decimal.unsigned Decimal.max64 text.toList with
  | .ok n => .ok n
  | .error fault => .error (.badValue flag.usage text fault.message)

/-- Reads one of a few values, where an empty text counts for none. -/
def readFormat (flag : Flag) (text : String) : Except Problem Format :=
  if text = "" then .error (.missingValue flag.usage)
  else
    match Format.parse false text with
    | .ok format => .ok format
    | .error _ => .error (.noChoice flag.usage text)

/-- Sets a value that was not set before. -/
def setOnce {α : Type} (flag : Flag) (before : Option α) (value : Except Problem α) :
    Except Problem (Option α) :=
  if before.isSome then .error (.repeated flag.usage) else value.map some

/-- Adds to a list. -/
def append (before : Option (List String)) (text : String) : Option (List String) :=
  some (before.getD [] ++ splitList text)

/-- The most that is counted of a switch. -/
def maxCount : Nat := 255

namespace Given

/-- Gives a flag a value. -/
def put (given : Given) (flag : Flag) (text : String) : Except Problem Given := do
  match flag.setting with
  | .format => return { given with format := ← setOnce flag given.format (readFormat flag text) }
  | .version =>
    return { given with
      version := ← setOnce flag given.version (readNamed flag Resp.Version.parse text) }
  | .delay => return { given with delay := ← setOnce flag given.delay (readNumber flag text) }
  | .bulkCount =>
    return { given with bulkCount := ← setOnce flag given.bulkCount (readNumber flag text) }
  | .url => return { given with url := ← setOnce flag given.url (.ok text) }
  | .nodes => return { given with nodes := append given.nodes text }
  | .servers => return { given with servers := append given.servers text }
  | .wire =>
    return { given with
      wire := ← setOnce flag given.wire (readNamed flag Memcached.Wire.parse text) }
  | .timeout =>
    return { given with timeout := ← setOnce flag given.timeout (readNumber flag text) }

/-- Throws a switch at a place. -/
def throwSwitch (place : Place) (given : Given) : Switch → Except Problem Given
  | .help => .error (.help place.about)
  | .release => .error .release
  | .keepGoing =>
    if given.keepGoing then .error (.repeated Switch.keepGoing.usage)
    else .ok { given with keepGoing := true }
  | .verbose => .ok { given with verbosity := min (given.verbosity + 1) maxCount }

/-- What is given after the command, and else what is given before it. -/
def orElse (after before : Given) : Given where
  format := after.format <|> before.format
  version := after.version <|> before.version
  delay := after.delay <|> before.delay
  bulkCount := after.bulkCount <|> before.bulkCount
  url := after.url <|> before.url
  nodes := after.nodes <|> before.nodes
  servers := after.servers <|> before.servers
  wire := after.wire <|> before.wire
  timeout := after.timeout <|> before.timeout
  keepGoing := after.keepGoing || before.keepGoing
  verbosity := if after.verbosity = 0 then before.verbosity else after.verbosity

end Given

end CacheCheck.CommandLine
