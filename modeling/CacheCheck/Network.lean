import CacheCheck.Memcached.Cache
import CacheCheck.Redis.Cache
import CacheCheck.Target

/-!
Opening targets. What is beyond this machine is given as a network, which decides who can be
reached; everything that can be found wrong with a target without reaching out is found first.
-/

set_option autoImplicit false

namespace CacheCheck

/-- An open connection to a node or a cluster, whatever the type of its states. -/
structure Redis.Connection : Type 1 where
  {State : Type}
  query : Resp.Command → State → Except Redis.Fault Resp.Reply × State
  state : State

/-- The client on a connection. -/
def Redis.Connection.connected (connection : Redis.Connection) (backend : Backend) : Connected where
  client := Redis.client connection.query backend
  state := connection.state

/-- Open connections to memcached servers, between which the keys are shared out. -/
structure Memcached.Pool : Type 1 where
  {State : Type}
  set : String → String → State → Except Memcached.Fault Unit × State
  get : String → State → Except Memcached.Fault (Option String) × State
  state : State

/-- The client on a pool. -/
def Memcached.Pool.connected (pool : Memcached.Pool) : Connected where
  client :=
    { backend := .memcached
      set := fun key value state ↦
        let (result, state) := pool.set key value state
        (result.mapError fun fault ↦ .command .memcached (.memcached fault), state)
      get := fun key state ↦
        let (result, state) := pool.get key state
        (result.mapError fun fault ↦ .command .memcached (.memcached fault), state)
      announce := Memcached.announce }
  state := pool.state

/-- What lies beyond: with whom a connection can be had. Spans of time are in milliseconds. -/
structure Network : Type 1 where
  redis : Redis.Address → Option Nat → Except Redis.Fault Redis.Connection
  cluster : List Redis.Address → Option Nat → Except Redis.Fault Redis.Connection
  /-- Whether a memcached server gets ready in time, or why not. -/
  ready : Memcached.Place → Option Nat → Except String Unit
  /-- The pool of servers that are all ready. -/
  memcached : List Memcached.Address → Option Nat → Memcached.Pool

/-- The outcome of opening a target. -/
inductive Opening : Type 1
  | ready (connected : Connected) (log : List LogLine)
  | failed (failure : Failure)
  /-- A setting broke a rule that the client library insists on. -/
  | aborted (message : String)

namespace Redis

/-- Opens a node. -/
def Node.connect (network : Network) (node : Redis.Node) : Opening :=
  match node.address with
  | .error failure => .failed failure
  | .ok address =>
    match network.redis address node.timeout with
    | .error fault => .failed (.connection .redis node.name (.redis fault))
    | .ok connection =>
      .ready (connection.connected .redis)
        [⟨.info, "connected to redis at " ++ node.name ++ " (" ++ node.version.name ++ ")"⟩]

/-- Opens a cluster. -/
def Cluster.connect (network : Network) (cluster : Redis.Cluster) : Opening :=
  match cluster.seeds with
  | .error failure => .failed failure
  | .ok seeds =>
    match network.cluster seeds cluster.timeout with
    | .error fault => .failed (.connection .redisCluster cluster.name (.redis fault))
    | .ok connection =>
      .ready (connection.connected .redisCluster)
        [⟨.info, "connected to redis cluster via " ++ cluster.name ++ " (" ++
          cluster.version.name ++ ")"⟩]

end Redis

namespace Memcached

/-- What stands in the way of a connection to one server. -/
inductive Obstacle
  | fault (fault : Fault)
  | abort (message : String)

/-- Connects to the servers in turn. A wait of no length is refused by the client library, after
it has read the address. -/
def reach (network : Network) (timeout : Option Nat) : List String → Except Obstacle (List Address)
  | [] => .ok []
  | url :: rest =>
    match Address.ofUrl url with
    | .error fault => .error (.fault fault)
    | .ok address =>
      if timeout = some 0 then .error (.abort "connection_timeout must be positive")
      else
        match network.ready address.place timeout with
        | .error reason => .error (.fault (.notReady reason))
        | .ok () => (reach network timeout rest).map (address :: ·)

/-- Opens servers. -/
def Servers.connect (network : Network) (servers : Memcached.Servers) : Opening :=
  match servers.urls with
  | .error failure => .failed failure
  | .ok urls =>
    match reach network servers.timeout urls with
    | .error (.fault fault) => .failed (.connection .memcached servers.name (.memcached fault))
    | .error (.abort message) => .aborted message
    | .ok addresses =>
      .ready (network.memcached addresses servers.timeout).connected
        [⟨.info, "connected to memcached at " ++ servers.name⟩]

end Memcached

/-- Opens a target. -/
def Target.connect (network : Network) : Target → Opening
  | .redis target => target.connect network
  | .cluster target => target.connect network
  | .memcached target => target.connect network

namespace Network

/-- The texts of the operating system's errors. -/
def unreachableText : String := "Network is unreachable (os error 101)"
@[inherit_doc unreachableText] def noFileText : String := "No such file or directory (os error 2)"
@[inherit_doc unreachableText] def badArgumentText : String := "Invalid argument (os error 22)"

/-- The length that the path of a socket must stay below. -/
def socketPathLimit : Nat := 108

/-- Why a socket that does not exist cannot be reached. -/
def noSocket (path : List UInt8) : String :=
  if path.contains 0 then "paths must not contain interior null bytes"
  else if socketPathLimit ≤ path.length then "path must be shorter than SUN_LEN"
  else if path.isEmpty then badArgumentText
  else noFileText

/-- Why a place cannot be reached without a network. -/
def whyNot : Memcached.Place → String
  | .network _ _ => unreachableText
  | .socket path => noSocket (Utf8.encode path)
  | .noPort => "No port number in the URL"

/-- How a cluster names a seed node. -/
def seedName (address : Redis.Address) : String :=
  match address.endpoint with
  | .tcp host port => host ++ ":" ++ toString port
  | .socket path => Utf8.decodeLossy path

/-- The fault of a cluster none of whose seeds can be reached. -/
def noSeed (seeds : List Redis.Address) : Redis.Fault :=
  let attempts := seeds.map fun seed ↦ seedName seed ++ ": " ++ unreachableText
  .described .io "It failed to check startup nodes." <| some <|
    "Failed to connect to each cluster node (" ++ "; ".intercalate attempts ++ ")"

/-- A pool whose connections are gone. -/
def gone : Memcached.Pool where
  set _ _ state := (.error (.system unreachableText), state)
  get _ state := (.error (.system unreachableText), state)
  state := ()

/-- The network of a machine that is cut off and holds no sockets. -/
def unreachable : Network where
  redis address _ :=
    match address.endpoint with
    | .tcp _ _ => .error (.system unreachableText)
    | .socket path => .error (.system (noSocket path))
  cluster seeds _ := .error (noSeed seeds)
  ready place _ := .error (whyNot place)
  memcached _ _ := gone

end Network

end CacheCheck
