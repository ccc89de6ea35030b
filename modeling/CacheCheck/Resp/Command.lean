import CacheCheck.Text.Utf8

/-!
Redis commands and the bytes they are sent as: the count of arguments, then every argument behind
its length. A pipeline is its commands one after the other.
-/

set_option autoImplicit false

namespace CacheCheck.Resp

/-- A command: its name and its other arguments, as bytes. -/
structure Command where
  arguments : List (List UInt8)
  deriving DecidableEq, Repr

namespace Command

/-- The command made of texts. -/
def ofTexts (texts : List String) : Command :=
  ⟨texts.map Utf8.encode⟩

def set (key value : String) : Command :=
  ofTexts ["SET", key, value]

def get (key : String) : Command :=
  ofTexts ["GET", key]

/-- A mark, a number and a line end. -/
def header (mark : Char) (n : Nat) : List UInt8 :=
  (mark :: Nat.toDigits 10 n ++ ['\r', '\n']).map fun c ↦ UInt8.ofNat c.toNat

def packArgument (bytes : List UInt8) : List UInt8 :=
  header '$' bytes.length ++ bytes ++ [0x0D, 0x0A]

/-- The bytes of a command. -/
def pack (command : Command) : List UInt8 :=
  header '*' command.arguments.length ++ command.arguments.flatMap packArgument

/-- The bytes of a pipeline. -/
def packAll (commands : List Command) : List UInt8 :=
  commands.flatMap pack

end Command

end CacheCheck.Resp
