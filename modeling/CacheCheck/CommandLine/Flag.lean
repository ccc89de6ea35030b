/-!
The commands, and the flags that each of them takes. A flag sets a value or throws a switch. Some
stand before a command as well as after it, the others only after it.
-/

set_option autoImplicit false

namespace CacheCheck.CommandLine

/-- The text at the head of the program's help. -/
def about : String := "Smoke checks for Redis, Redis Cluster and Memcached"

/-- The name and the number of this version of the program. -/
def release : String := "cache-smoke 0.1.0"

inductive Command
  | redis
  | cluster
  | memcached
  | all
  deriving DecidableEq, Repr

namespace Command

def every : List Command := [.redis, .cluster, .memcached, .all]

def name : Command → String
  | .redis => "redis"
  | .cluster => "cluster"
  | .memcached => "memcached"
  | .all => "all"

def ofName? (text : String) : Option Command :=
  every.find? (·.name = text)

/-- The text at the head of a command's help. -/
def about : Command → String
  | .redis => "Check a single Redis node"
  | .cluster => "Check a Redis Cluster through its seed nodes"
  | .memcached => "Check one or more memcached servers"
  | .all => "Check all three with default timeouts"

end Command

/-- The word that asks for help about the words after it. -/
def helpWord : String := "help"

/-- The text at the head of the help on asking for help. -/
def helpAbout : String := "Print this message or the help of the given subcommand(s)"

/-- A place among the words: before any command, or after one. -/
abbrev Place := Option Command

/-- The text at the head of the help at a place. -/
def Place.about : Place → String
  | none => CommandLine.about
  | some command => command.about

/-- What a flag with a value sets. -/
inductive Setting
  | format
  | version
  | delay
  | bulkCount
  | url
  | nodes
  | servers
  | wire
  | timeout
  deriving DecidableEq, Repr

/-- A flag with a value. -/
structure Flag where
  name : String
  /-- What the help calls the value. -/
  value : String
  setting : Setting
  deriving DecidableEq, Repr

namespace Flag

/-- A flag as messages show it. -/
def usage (flag : Flag) : String :=
  "--" ++ flag.name ++ " <" ++ flag.value ++ ">"

/-- The flag of the protocol version, which the environment can stand in for. -/
def version : Flag := ⟨"protocol", "PROTOCOL", .version⟩

/-- The flags of every place. -/
def everywhere : List Flag :=
  [⟨"format", "FORMAT", .format⟩, version, ⟨"delay-ms", "DELAY_MS", .delay⟩,
    ⟨"bulk-count", "BULK_COUNT", .bulkCount⟩]

def timeout : Flag := ⟨"timeout-ms", "TIMEOUT_MS", .timeout⟩

/-- The flags of one command only. -/
def ofCommand : Command → List Flag
  | .redis => [⟨"url", "URL", .url⟩, timeout]
  | .cluster => [⟨"node", "NODES", .nodes⟩, timeout]
  | .memcached => [⟨"server", "SERVERS", .servers⟩, ⟨"wire", "WIRE", .wire⟩, timeout]
  | .all =>
    [⟨"redis-url", "REDIS_URL", .url⟩, ⟨"cluster-node", "CLUSTER_NODES", .nodes⟩,
      ⟨"memcached-server", "MEMCACHED_SERVERS", .servers⟩]

/-- The flags of a place. -/
def ofPlace : Place → List Flag
  | none => everywhere
  | some command => ofCommand command ++ everywhere

/-- The flag of a name. -/
def ofName? (place : Place) (name : String) : Option Flag :=
  (ofPlace place).find? (·.name = name)

end Flag

/-- A flag without a value. -/
inductive Switch
  | keepGoing
  | verbose
  | help
  | release
  deriving DecidableEq, Repr

namespace Switch

def every : List Switch := [.keepGoing, .verbose, .help, .release]

def name : Switch → String
  | .keepGoing => "keep-going"
  | .verbose => "verbose"
  | .help => "help"
  | .release => "version"

/-- The letter that throws a switch. -/
def letter? : Switch → Option Char
  | .keepGoing => none
  | .verbose => some 'v'
  | .help => some 'h'
  | .release => some 'V'

/-- A switch as messages show it. Of one that counts, an ellipsis says so. -/
def usage (switch : Switch) : String :=
  "--" ++ switch.name ++ (if switch = .verbose then "..." else "")

/-- The switches of a place; the version of the program is not asked for after a command. -/
def ofPlace : Place → List Switch
  | none => every
  | some _ => [.keepGoing, .verbose, .help]

def ofName? (place : Place) (name : String) : Option Switch :=
  (ofPlace place).find? (·.name = name)

def ofLetter? (place : Place) (letter : Char) : Option Switch :=
  (ofPlace place).find? (·.letter? = some letter)

end Switch

end CacheCheck.CommandLine
