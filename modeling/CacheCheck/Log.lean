/-!
Log lines, and the spans of time told in them. A span is counted in milliseconds and written in the
largest unit that leaves a whole part.
-/

set_option autoImplicit false

namespace CacheCheck

inductive LogLevel
  | error
  | warn
  | info
  | debug
  deriving DecidableEq, Repr

def LogLevel.name : LogLevel → String
  | .error => "error"
  | .warn => "warn"
  | .info => "info"
  | .debug => "debug"

/-- Whether lines of a level are shown, when so much is asked for. -/
def LogLevel.isShown (verbosity : Nat) : LogLevel → Bool
  | .error | .warn => true
  | .info => 1 ≤ verbosity
  | .debug => 2 ≤ verbosity

/-- One line of the log. -/
structure LogLine where
  level : LogLevel
  message : String
  deriving DecidableEq, Repr

namespace Span

/-- The decimal places of a part of a second, without trailing zeros. -/
def places (milliseconds : Nat) : List Char :=
  ([milliseconds / 100, milliseconds / 10 % 10, milliseconds % 10].map Nat.digitChar
    |>.reverse.dropWhile (· = '0')).reverse

/-- The text of a span: seconds with up to three places, else milliseconds, else nothing at all. -/
def text (milliseconds : Nat) : String :=
  if milliseconds = 0 then "0ns"
  else if milliseconds < 1000 then toString milliseconds ++ "ms"
  else
    let part := places (milliseconds % 1000)
    toString (milliseconds / 1000) ++
      (if part.isEmpty then "" else "." ++ String.ofList part) ++ "s"

end Span

end CacheCheck
