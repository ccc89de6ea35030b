/-!
The kinds of server a check can be run against, and the names they go by.
-/

set_option autoImplicit false

namespace CacheCheck

/-- ASCII letters in lower case, everything else as it is. -/
def asciiLower (s : String) : String :=
  s.map Char.toLower

/-- The kind of server a client talks to. -/
inductive Backend
  /-- A single Redis node. -/
  | redis
  /-- A Redis Cluster, addressed through its seed nodes. -/
  | redisCluster
  /-- One or more memcached servers. -/
  | memcached
  deriving DecidableEq, Repr, Inhabited

namespace Backend

def all : List Backend := [.redis, .redisCluster, .memcached]

def name : Backend → String
  | .redis => "redis"
  | .redisCluster => "redis-cluster"
  | .memcached => "memcached"

/-- The backend with exactly this name. -/
def ofName? (s : String) : Option Backend :=
  all.find? (·.name = s)

@[simp] theorem ofName?_name (backend : Backend) : ofName? backend.name = some backend := by
  cases backend <;> rfl

end CacheCheck.Backend
