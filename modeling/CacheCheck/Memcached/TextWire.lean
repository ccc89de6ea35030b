import CacheCheck.Memcached.Entries
import CacheCheck.Text.Tokens

/-!
The text protocol: lines of words between blanks. A line that announces data is followed by a
block of that many bytes and two more, which are not looked at. The last line need not be ended.
-/

set_option autoImplicit false

namespace CacheCheck.Memcached.TextWire

/-- A line as a command. -/
inductive Command
  | version
  | set (key : String) (flags : UInt32) (length : Nat) (noreply : Bool)
  /-- A line that would set a value, with a number that cannot be read. -/
  | badSet
  /-- A read of several keys; the long form sends one more number for each. -/
  | get (long : Bool) (keys : List String)
  | delete (key : String)
  | flush
  | quit
  | unknown
  deriving DecidableEq, Repr

/-- Reads the words of a line as a command. -/
def Command.ofWords : List String → Command
  | ["version"] => .version
  | "set" :: key :: flags :: _ :: length :: rest =>
    match Decimal.unsigned Decimal.max32 flags.toList,
      Decimal.unsigned Decimal.max64 length.toList with
    | .ok flags, .ok length => .set key (UInt32.ofNat flags) length (rest.contains "noreply")
    | _, _ => .badSet
  | "get" :: keys => .get false keys
  | "gets" :: keys => .get true keys
  | "delete" :: key :: _ => .delete key
  | "flush_all" :: _ => .flush
  | ["quit"] => .quit
  | _ => .unknown

/-- The first line of an input with its end, and what follows. -/
def splitLine (input : List UInt8) : List UInt8 × List UInt8 :=
  let line := input.takeWhile (· ≠ 0x0A)
  match input.dropWhile (· ≠ 0x0A) with
  | [] => (line, [])
  | lineEnd :: rest => (line ++ [lineEnd], rest)

theorem length_splitLine (input : List UInt8) :
    (splitLine input).1.length + (splitLine input).2.length = input.length := by
  have h := congrArg List.length
    (List.takeWhile_append_dropWhile (p := fun b : UInt8 ↦ b ≠ 0x0A) (l := input))
  rw [List.length_append] at h
  unfold splitLine
  split
  · next heq => simp only [heq, List.length_nil] at h ⊢; omega
  · next heq =>
    simp only [heq, List.length_cons, List.length_append, List.length_nil] at h ⊢; omega

theorem length_splitLine_snd_lt {input : List UInt8} (h : input ≠ []) :
    (splitLine input).2.length < input.length := by
  have hsum := length_splitLine input
  have hpos : 0 < (splitLine input).1.length := by
    cases input with
    | nil => exact absurd rfl h
    | cons b rest =>
      unfold splitLine
      by_cases hb : b = 0x0A
      · simp [hb]
      · split <;> simp [hb]
  omega

/-- A reply of one line. -/
def line (text : String) : List UInt8 :=
  Utf8.encode (text ++ "\r\n")

/-- What is sent for one key of a read: nothing when it is absent. -/
def valueReply (long : Bool) (entries : Entries) (key : String) : List UInt8 :=
  match entries.get? key with
  | none => []
  | some entry =>
    line ("VALUE " ++ key ++ " " ++ toString entry.flags.toNat ++ " " ++
        toString entry.data.length ++ (if long then " 0" else "")) ++
      entry.data ++ [0x0D, 0x0A]

/-- The least length of a block, with its two further bytes, that no memory can hold. -/
def memoryLimit : Nat := Nat.pow 2 63

/-- Carries a command out. -/
def execute (stalled : Bool) (entries : Entries) (command : Command) (rest : List UInt8) : Turn :=
  match command with
  | .version => .next (line ("VERSION " ++ versionName)) entries rest
  | .set key flags length noreply =>
    if Decimal.max64 < length + 2 then .last (.broken .overflow)
    else if memoryLimit ≤ length + 2 then .last (.broken .tooLong)
    else if rest.length < length + 2 then .last (.broken .cutShort)
    else
      .next (if noreply then [] else line "STORED") (entries.insert key ⟨flags, rest.take length⟩)
        (rest.drop (length + 2))
  | .badSet => .next (line "CLIENT_ERROR bad command line format") entries rest
  | .get long keys =>
    if stalled then .last .stalled
    else .next (keys.flatMap (valueReply long entries) ++ line "END") entries rest
  | .delete key =>
    .next (line (if (entries.get? key).isSome then "DELETED" else "NOT_FOUND"))
      (entries.erase key) rest
  | .flush => .next (line "OK") .empty rest
  | .quit => .last .quit
  | .unknown => .next (line "ERROR") entries rest

/-- Serves one command. -/
def turn (stalled : Bool) (entries : Entries) (input : List UInt8) : Turn :=
  if input = [] then .last .closed
  else
    match Utf8.decode? (splitLine input).1 with
    | none => .last (.broken .notText)
    | some text => execute stalled entries (.ofWords (words text)) (splitLine input).2

theorem length_rest_le_of_execute {stalled : Bool} {entries entries' : Entries}
    {command : Command} {input reply rest : List UInt8}
    (h : execute stalled entries command input = .next reply entries' rest) :
    rest.length ≤ input.length := by
  cases command <;> simp only [execute] at h
  case set =>
    split at h
    · cases h
    · split at h
      · cases h
      · split at h
        · cases h
        · cases h
          rw [List.length_drop]
          omega
  case get =>
    split at h <;> cases h
    exact Nat.le_refl _
  case quit => cases h
  all_goals
    cases h
    exact Nat.le_refl _

theorem turn_shorter (stalled : Bool) (entries : Entries) (input reply : List UInt8)
    (entries' : Entries) (rest : List UInt8)
    (h : turn stalled entries input = .next reply entries' rest) :
    rest.length < input.length := by
  unfold turn at h
  split at h
  · cases h
  · next hne =>
    split at h
    · cases h
    · exact Nat.lt_of_le_of_lt (length_rest_le_of_execute h) (length_splitLine_snd_lt hne)

/-- Serves a connection. -/
def serve (stalled : Bool) (entries : Entries) (input : List UInt8) : Served :=
  takeTurns (turn stalled) (turn_shorter stalled) entries input

end CacheCheck.Memcached.TextWire
