import CacheCheck.Memcached.Address
import CacheCheck.Memcached.BinaryWire
import CacheCheck.Memcached.TextWire

/-!
The endpoint: a connection speaks the protocol that its first byte belongs to.
-/

set_option autoImplicit false

namespace CacheCheck.Memcached

/-- The wire of a connection, told from what it sends first. -/
def Wire.ofInput (input : List UInt8) : Wire :=
  if input.head? = some requestMark then .binary else .ascii

/-- Serves a connection that speaks a given wire. -/
def Wire.serve (wire : Wire) (stalled : Bool) (entries : Entries) (input : List UInt8) : Served :=
  match wire with
  | .binary => BinaryWire.serve stalled entries input
  | .ascii => TextWire.serve stalled entries input

/-- Serves one command of a connection that speaks a given wire. -/
def Wire.turn (wire : Wire) (stalled : Bool) (entries : Entries) (input : List UInt8) : Turn :=
  match wire with
  | .binary => BinaryWire.turn stalled entries input
  | .ascii => TextWire.turn stalled entries input

/-- Serves a connection. -/
def serve (stalled : Bool) (entries : Entries) (input : List UInt8) : Served :=
  (Wire.ofInput input).serve stalled entries input

/-- An endpoint: its entries, and whether reads hang. -/
structure Endpoint where
  entries : Entries := .empty
  stalled : Bool := false

/-- Opens a connection, sends an input, and waits for the end. -/
def Endpoint.exchange (endpoint : Endpoint) (input : List UInt8) : Served × Endpoint :=
  let served := serve endpoint.stalled endpoint.entries input
  (served, { endpoint with entries := served.entries })

end CacheCheck.Memcached
