import CacheCheck.CommandLine.Given

/-!
Reading the words at one place, from left to right, up to the end or to a command. A word that
begins with a dash is a flag or a bunch of letters, and the dash alone is neither. The value of a
flag may be a word of its own, which then does not begin with a dash. It is looked at only when the
next flag has been recognised, so that an unknown word is reported before a bad value.
-/

set_option autoImplicit false

namespace CacheCheck.CommandLine

/-- A word of the command line, by its shape. -/
inductive Word
  /-- Two dashes and nothing else: no word after it is a flag. -/
  | divider
  /-- Two dashes, a name, and perhaps a value after an equals sign. -/
  | long (name : String) (value : Option String)
  /-- One dash and letters. -/
  | short (letters : List Char)
  | plain (text : String)
  deriving DecidableEq, Repr

/-- The shape of a word. -/
def Word.ofText (text : String) : Word :=
  match text.toList with
  | ['-', '-'] => .divider
  | '-' :: '-' :: chars =>
    let name := String.ofList (chars.takeWhile (· ≠ '='))
    match chars.dropWhile (· ≠ '=') with
    | [] => .long name none
    | _ :: value => .long name (some (String.ofList value))
  | '-' :: letter :: letters => .short (letter :: letters)
  | _ => .plain text

/-- What has been read so far. The last flag is pending until it is looked at, without a value as
long as that is awaited. -/
structure Reading where
  given : Given := {}
  pending : Option (Flag × Option String) := none
  deriving DecidableEq, Repr

namespace Reading

/-- The flag whose value is awaited. -/
def awaited? (reading : Reading) : Option Flag :=
  match reading.pending with
  | some (flag, none) => some flag
  | _ => none

/-- Looks at the pending flag. -/
def settle (reading : Reading) : Except Problem Given :=
  match reading.pending with
  | none => .ok reading.given
  | some (flag, none) => .error (.missingValue flag.usage)
  | some (flag, some text) => reading.given.put flag text

/-- Throws a switch. -/
def throwSwitch (place : Place) (reading : Reading) (switch : Switch) :
    Except Problem Reading := do
  let given ← reading.settle
  return { given := ← given.throwSwitch place switch }

/-- Reads a word of letters, each of them a switch. -/
def letters (place : Place) (reading : Reading) : List Char → Except Problem Reading
  | [] => .ok reading
  | letter :: rest =>
    match Switch.ofLetter? place letter with
    | none => .error (.unknownArgument (String.ofList ['-', letter]))
    | some switch => do letters place (← reading.throwSwitch place switch) rest

/-- Reads a flag, or a switch that is named in full. -/
def named (place : Place) (reading : Reading) (name : String) (value : Option String) :
    Except Problem Reading :=
  match Flag.ofName? place name, Switch.ofName? place name, value with
  | some flag, _, some text => do
    let given ← reading.settle
    return { given := ← given.put flag text }
  | some flag, _, none => do return { given := ← reading.settle, pending := some (flag, none) }
  | none, some switch, some value => .error (.needlessValue switch.usage value)
  | none, some switch, none => reading.throwSwitch place switch
  | none, none, _ => .error (.unknownArgument ("--" ++ name))

/-- A word that is neither a flag, nor a value, nor a command. -/
def stray (place : Place) (word : String) : Problem :=
  match place with
  | none => .unknownCommand word
  | some _ => .unknownArgument word

/-- A word that is out of place because flags have come to an end. -/
def strayAfterDivider (place : Place) (word : String) : Problem :=
  if word = helpWord || (Command.ofName? word).isSome then .unknownArgument word
  else stray place word

/-- The help that the words after a request for it ask for. -/
def help : List String → Problem
  | [] => .help about
  | word :: rest =>
    match Command.ofName? word, rest with
    | some command, [] => .help command.about
    | some _, next :: _ => .unknownCommand next
    | none, _ =>
      if word = helpWord then
        match rest with
        | [] => .help helpAbout
        | next :: _ => .unknownCommand next
      else .unknownCommand word

/-- Reads words. The result tells the command that was come upon, with the words that follow. -/
def words (place : Place) (reading : Reading) :
    List String → Except Problem (Reading × Option (Command × List String))
  | [] => .ok (reading, none)
  | word :: rest =>
    match Word.ofText word with
    | .divider =>
      match rest with
      | [] => .ok (reading, none)
      | next :: _ => .error (strayAfterDivider place next)
    | .long name value => do words place (← reading.named place name value) rest
    | .short letters => do words place (← reading.letters place letters) rest
    | .plain text =>
      match reading.awaited? with
      | some flag => words place { reading with pending := some (flag, some text) } rest
      | none =>
        if place.isSome then .error (stray place text)
        else
          match Command.ofName? text with
          | some command => .ok (reading, some (command, rest))
          | none => .error (if text = helpWord then help rest else stray place text)

end Reading

end CacheCheck.CommandLine
