import CacheCheck.CommandLine.Environment
import CacheCheck.CommandLine.Reading
import CacheCheck.Run
import CacheCheck.Target

/-!
Invocations of the program: what its words and its environment ask for. A value is the one given
after the command, else the one given before it, else the one in the environment, else the default.
-/

set_option autoImplicit false

namespace CacheCheck.CommandLine

/-- What is to be checked. -/
inductive Request
  | redis (url : String) (timeout : Option Nat)
  | cluster (nodes : List String) (timeout : Option Nat)
  | memcached (servers : List String) (wire : Memcached.Wire) (timeout : Nat)
  | all (url : String) (nodes servers : List String)
  deriving DecidableEq, Repr

/-- The targets of a request, in the order in which they are visited. -/
def Request.targets (version : Resp.Version) : Request → List Target
  | .redis url timeout => [.redis { url, version, timeout }]
  | .cluster nodes timeout => [.cluster { nodes, version, timeout }]
  | .memcached servers wire timeout => [.memcached { servers, wire, timeout }]
  | .all url nodes servers =>
    [.redis { url, version }, .cluster { nodes, version }, .memcached { servers }]

/-- A command line that has been understood. -/
structure Invocation where
  request : Request
  version : Resp.Version
  format : Format
  onFailure : OnFailure
  options : Suite.Options
  verbosity : Nat
  deriving DecidableEq, Repr

namespace Invocation

def targets (invocation : Invocation) : List Target :=
  invocation.request.targets invocation.version

/-- The timeout of memcached servers when none is given, in milliseconds. -/
def standardTimeout : Nat := 60000

/-- What a command asks for. -/
def requestOf (environment : Environment) (given : Given) (command : Command) : Request :=
  let url := (environment.url? given).getD ({} : Redis.Node).url
  let nodes := (environment.nodes? given).getD ({} : Redis.Cluster).nodes
  let servers := (environment.servers? given).getD ({} : Memcached.Servers).servers
  match command with
  | .redis => .redis url given.timeout
  | .cluster => .cluster nodes given.timeout
  | .memcached =>
    .memcached servers (given.wire.getD .standard) (given.timeout.getD standardTimeout)
  | .all => .all url nodes servers

/-- The invocation that a command and what was given for it make. -/
def ofGiven (environment : Environment) (command : Command) (given : Given)
    (version : Option Resp.Version) : Invocation :=
  let standard : Suite.Options := {}
  { request := requestOf environment given command
    version := version.getD .standard
    format := given.format.getD .standard
    onFailure := if given.keepGoing then .keepGoing else .stop
    options := { standard with
      delayMilliseconds := given.delay.getD standard.delayMilliseconds
      bulkCount := given.bulkCount.getD standard.bulkCount }
    verbosity := given.verbosity }

/-- Whether anything was given before a command could have been. -/
def isBare (environment : Environment) (given : Given) : Bool :=
  given = {} && environment.version.isNone

/-- Reads the words after the program's name. What follows a command is read to its end before
what stands in front of it is looked at for the last time, and the environment is looked at after
the words of either place. -/
def parse (environment : Environment) (words : List String) : Except Problem Invocation := do
  let (front, command?) ← Reading.words none {} words
  match command? with
  | none =>
    let before ← front.settle
    let _ ← environment.version? before
    .error (if isBare environment before then .nothingGiven else .noCommand)
  | some (command, rest) =>
    let (back, _) ← Reading.words (some command) {} rest
    let after ← back.settle
    let _ ← environment.version? after
    let before ← front.settle
    let _ ← environment.version? before
    let given := after.orElse before
    return ofGiven environment command given (← environment.version? given)

end Invocation

end CacheCheck.CommandLine
