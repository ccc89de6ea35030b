import CacheCheck.Failure
import CacheCheck.Memcached.Fault
import CacheCheck.Url

/-!
Addresses of memcached servers: URLs, or bare hosts and ports. A connection speaks one of two wire
protocols, and the query of the URL asks for it.
-/

set_option autoImplicit false

namespace CacheCheck.Memcached

inductive Wire
  | binary
  | ascii
  deriving DecidableEq, Repr, Inhabited

namespace Wire

def standard : Wire := .binary

def name : Wire → String
  | .binary => "binary"
  | .ascii => "ascii"

/-- Reads a wire by name, in either case; the ascii wire is also called text. -/
def parse (s : String) : Except Failure Wire :=
  match asciiLower s with
  | "binary" => .ok .binary
  | "ascii" | "text" => .ok .ascii
  | _ => .error (.configuration ("unknown memcached protocol " ++ quote s))

end Wire

/-- Where a server listens. -/
inductive Place
  | network (host : String) (port : Nat)
  | socket (path : String)
  /-- A host whose URL has no port. -/
  | noPort
  deriving DecidableEq, Repr

/-- What it takes to connect. -/
structure Address where
  place : Place
  wire : Wire
  deriving DecidableEq, Repr

namespace Address

def schemes : List String :=
  ["memcache", "memcache+tcp", "memcache+udp", "memcache+unix"]

/-- The URL that an address stands for, when a wire is asked for. -/
def url (wire : Wire) (text : String) : String :=
  let url := Url.withScheme "memcache" text
  match wire with
  | .binary => url
  | .ascii => url ++ (if url.toList.contains '?' then "&" else "?") ++ "protocol=ascii"

/-- Where the server of a URL listens. Without a host, or where the scheme says so, the path is
that of a socket. -/
def placeOf (url : Url) : Place :=
  match url.host with
  | none => .socket url.path
  | some host =>
    if url.scheme = "memcache+unix" then .socket url.path
    else
      match url.port with
      | some port => .network host.text port
      | none => .noPort

/-- Reads a URL. -/
def ofUrl (text : String) : Except Fault Address :=
  match Url.parse text with
  | .error fault => .error (.badUrl fault.message)
  | .ok url =>
    if schemes.contains url.scheme then
      .ok { place := placeOf url
            wire := if url.parameters.contains ("protocol", "ascii") then .ascii else .binary }
    else .error (.badUrl ("Unsupported protocol: " ++ url.scheme))

end Address

end CacheCheck.Memcached
