import CacheCheck.Check

/-!
Suites: named, ordered lists of checks, and the one that each backend is given by default.
-/

set_option autoImplicit false

namespace CacheCheck

structure Suite where
  name : String
  checks : List Check
  deriving DecidableEq, Repr

namespace Suite

/-- What can be changed about the default suites. -/
structure Options where
  delayMilliseconds : Nat := 1000
  bulkCount : Nat := 1000
  bulkStem : String := "test"
  deriving DecidableEq, Repr

/-- The default suite of a backend. A single node is given a round trip and a key that must be
missing; a cluster also a bulk write, whose keys reach every shard; memcached a delayed round
trip, a plain one, and four reads that are not compared. -/
def forBackend (backend : Backend) (options : Options) : Suite where
  name := backend.name
  checks :=
    match backend with
    | .redis => [.roundTrip "foo" "bar", .missing "bob"]
    | .redisCluster =>
      [.roundTrip "foo" "bar", .missing "bob", .bulk options.bulkStem options.bulkCount]
    | .memcached =>
      [.delayed "titi" "tutu" options.delayMilliseconds, .roundTrip "foo" "bar",
        .probe "test1", .probe "test2", .probe "test3", .probe "test4"]

end Suite

end CacheCheck
