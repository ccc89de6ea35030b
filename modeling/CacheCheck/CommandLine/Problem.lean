import CacheCheck.CommandLine.Flag

/-!
The ways a command line ends without a run: a request for help or for the version, or a mistake.
-/

set_option autoImplicit false

namespace CacheCheck.CommandLine

/-- A usage is a flag as messages show it. -/
inductive Problem
  | help (about : String)
  | release
  /-- There are no words, and nothing in the environment that counts for any. -/
  | nothingGiven
  /-- There are words, but none that says what to check. -/
  | noCommand
  | unknownCommand (word : String)
  | unknownArgument (word : String)
  | missingValue (usage : String)
  | repeated (usage : String)
  | needlessValue (usage value : String)
  /-- A value that is not one of a few. -/
  | noChoice (usage value : String)
  | badValue (usage value reason : String)
  deriving DecidableEq, Repr

namespace Problem

/-- What is wrong with a value. -/
def aboutValue (usage value : String) : String :=
  "error: invalid value '" ++ value ++ "' for '" ++ usage ++ "'"

def message : Problem → String
  | .help about => about
  | .release => CommandLine.release
  | .nothingGiven => CommandLine.about
  | .noCommand => "error: 'cache-smoke' requires a subcommand but one was not provided"
  | .unknownCommand word => "error: unrecognized subcommand '" ++ word ++ "'"
  | .unknownArgument word => "error: unexpected argument '" ++ word ++ "' found"
  | .missingValue usage =>
    "error: a value is required for '" ++ usage ++ "' but none was supplied"
  | .repeated usage =>
    "error: the argument '" ++ usage ++ "' cannot be used multiple times"
  | .needlessValue usage value =>
    "error: unexpected value '" ++ value ++ "' for '" ++ usage ++
      "' found; no more were expected"
  | .noChoice usage value => aboutValue usage value
  | .badValue usage value reason => aboutValue usage value ++ ": " ++ reason

/-- Whether what was asked for is being shown. -/
def isRequest : Problem → Bool
  | .help _ | .release => true
  | _ => false

/-- The exit code of the program. -/
def exitCode (problem : Problem) : Nat :=
  if problem.isRequest then 0 else 2

end Problem

end CacheCheck.CommandLine
