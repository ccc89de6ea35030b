import CacheCheck.CommandLine.Given

/-!
The environment, which stands in for flags that were not given.
-/

set_option autoImplicit false

namespace CacheCheck.CommandLine

/-- The variables that the program looks at. One that is set but empty counts as set. -/
structure Environment where
  version : Option String := none
  url : Option String := none
  nodes : Option String := none
  servers : Option String := none
  deriving DecidableEq, Repr

namespace Environment

/-- The environment that a look-up of variables by name amounts to. -/
def ofVariables (value? : String → Option String) : Environment where
  version := value? "CACHE_SMOKE_PROTOCOL"
  url := value? "CACHE_SMOKE_REDIS_URL"
  nodes := value? "CACHE_SMOKE_CLUSTER_NODES"
  servers := value? "CACHE_SMOKE_MEMCACHED_SERVERS"

/-- The names of the variables. -/
def names : List String :=
  ["CACHE_SMOKE_PROTOCOL", "CACHE_SMOKE_REDIS_URL", "CACHE_SMOKE_CLUSTER_NODES",
    "CACHE_SMOKE_MEMCACHED_SERVERS"]

/-- The protocol version: what was given, or what the variable says. -/
def version? (environment : Environment) (given : Given) :
    Except Problem (Option Resp.Version) :=
  match given.version, environment.version with
  | some version, _ => .ok (some version)
  | none, some text => (readNamed Flag.version Resp.Version.parse text).map some
  | none, none => .ok none

/-- The address of the node. -/
def url? (environment : Environment) (given : Given) : Option String :=
  given.url <|> environment.url

/-- The addresses of the cluster's nodes. -/
def nodes? (environment : Environment) (given : Given) : Option (List String) :=
  given.nodes <|> environment.nodes.map splitList

/-- The addresses of the servers. -/
def servers? (environment : Environment) (given : Given) : Option (List String) :=
  given.servers <|> environment.servers.map splitList

end Environment

end CacheCheck.CommandLine
