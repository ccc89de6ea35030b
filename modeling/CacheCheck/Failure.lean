import CacheCheck.Backend
import CacheCheck.Memcached.Fault
import CacheCheck.Redis.Fault
import CacheCheck.Text.Quoted

/-!
The ways an operation of this library fails. Two of them are verdicts on what the server
answered; the others say that no answer was had.
-/

set_option autoImplicit false

namespace CacheCheck

/-- A fault of either client. -/
inductive Cause
  | redis (fault : Redis.Fault)
  | memcached (fault : Memcached.Fault)
  deriving DecidableEq, Repr

namespace Cause

def message : Cause → String
  | .redis fault => fault.message
  | .memcached fault => fault.message

/-- The cause and its own causes, outermost first. -/
def chain : Cause → List String
  | .redis fault => fault.chain
  | .memcached fault => fault.chain

end Cause

inductive Failure
  /-- A flag, a variable of the environment or an address could not be understood. -/
  | configuration (message : String)
  /-- No connection could be opened. -/
  | connection (backend : Backend) (target : String) (cause : Cause)
  /-- A command failed on an open connection. -/
  | command (backend : Backend) (cause : Cause)
  /-- A value was read that differs from the one written. -/
  | mismatch (key expected : String) (actual : Option String)
  /-- A key that should have been absent was present. -/
  | unexpectedValue (key actual : String)
  deriving DecidableEq, Repr

namespace Failure

/-- The classes of failure that decide how a run ends. -/
inductive Kind
  | configuration
  | connection
  | command
  | assertion
  deriving DecidableEq, Repr

def kind : Failure → Kind
  | .configuration _ => .configuration
  | .connection _ _ _ => .connection
  | .command _ _ => .command
  | .mismatch _ _ _ | .unexpectedValue _ _ => .assertion

/-- Whether the server's data contradicted what was written. -/
def isAssertion (failure : Failure) : Bool :=
  failure.kind = .assertion

/-- A value that was read, quoted; a key that was absent reads as nil, without quotes. -/
def quoteRead : Option String → String
  | some value => quote value
  | none => "(nil)"

def message : Failure → String
  | .configuration message => "invalid configuration: " ++ message
  | .connection backend target cause =>
    "could not connect to " ++ backend.name ++ " at " ++ target ++ ": " ++ cause.message
  | .command backend cause => backend.name ++ " command failed: " ++ cause.message
  | .mismatch key expected actual =>
    "value mismatch for " ++ quote key ++ ": expected " ++ quote expected ++ ", got " ++
      quoteRead actual
  | .unexpectedValue key actual =>
    "expected " ++ quote key ++ " to be absent, got " ++ quote actual

/-- The causes behind a failure, outermost first. -/
def chain : Failure → List String
  | .connection _ _ cause | .command _ cause => cause.chain
  | _ => []

end Failure

end CacheCheck
