import CacheCheck.Memcached.Address
import CacheCheck.Redis.Address

/-!
Targets: what a run of the program is pointed at, and how it is named in reports.
-/

set_option autoImplicit false

namespace CacheCheck

/-- A single Redis node. Spans of time are in milliseconds. -/
structure Redis.Node where
  url : String := "redis://127.0.0.1:6379"
  version : Resp.Version := .standard
  timeout : Option Nat := none
  deriving DecidableEq, Repr

/-- A Redis Cluster, reached through its seed nodes. -/
structure Redis.Cluster where
  nodes : List String := ["redis://127.0.0.1:7000"]
  version : Resp.Version := .standard
  timeout : Option Nat := none
  deriving DecidableEq, Repr

/-- One or more memcached servers. -/
structure Memcached.Servers where
  servers : List String := ["127.0.0.1:11211"]
  wire : Memcached.Wire := .standard
  timeout : Option Nat := some 60000
  deriving DecidableEq, Repr

namespace Redis.Node

def name (node : Redis.Node) : String :=
  Address.url node.url

def address (node : Redis.Node) : Except Failure Address :=
  Address.parse node.url node.version

end Redis.Node

namespace Redis.Cluster

def name (cluster : Redis.Cluster) : String :=
  ",".intercalate (cluster.nodes.map Address.url)

/-- The addresses of the seed nodes, of which there must be one. -/
def addresses (cluster : Redis.Cluster) : Except Failure (List Address) :=
  if cluster.nodes.isEmpty then
    .error (.configuration "at least one cluster node is required")
  else cluster.nodes.mapM (Address.parse · cluster.version)

/-- What keeps a node from being a seed beside the first: a socket, or other credentials than the
first node has. -/
def objection? (first node : Address) : Option String :=
  match node.endpoint with
  | .socket _ =>
    some <| "This library cannot use unix socket because Redis's cluster command returns only " ++
      "cluster's IP and port."
  | .tcp _ _ =>
    if first.password.isSome && first.password ≠ node.password then
      some "Cannot use different password among initial nodes."
    else if first.username.isSome && first.username ≠ node.username then
      some "Cannot use different username among initial nodes."
    else none

/-- The seed nodes, once they have been checked against the first. -/
def seeds (cluster : Redis.Cluster) : Except Failure (List Address) := do
  let addresses ← cluster.addresses
  match addresses.head?.bind fun first ↦ addresses.findSome? (objection? first) with
  | none => .ok addresses
  | some reason =>
    .error <| .configuration <|
      "bad cluster nodes " ++ cluster.name ++ ": " ++ (Address.invalid reason).message

end Redis.Cluster

namespace Memcached.Servers

def name (servers : Memcached.Servers) : String :=
  ",".intercalate servers.servers

/-- The URLs of the servers, of which there must be one. -/
def urls (servers : Memcached.Servers) : Except Failure (List String) :=
  if servers.servers.isEmpty then
    .error (.configuration "at least one memcached server is required")
  else .ok (servers.servers.map (Address.url servers.wire))

end Memcached.Servers

/-- Any one of the supported targets. -/
inductive Target
  | redis (node : Redis.Node)
  | cluster (cluster : Redis.Cluster)
  | memcached (servers : Memcached.Servers)
  deriving DecidableEq, Repr

namespace Target

def backend : Target → Backend
  | .redis _ => .redis
  | .cluster _ => .redisCluster
  | .memcached _ => .memcached

/-- The target as reports name it. -/
def describe : Target → String
  | .redis target => target.name
  | .cluster target => target.name
  | .memcached target => target.name

end Target

end CacheCheck
