import CacheCheck.Failure
import CacheCheck.Text.Tokens
import CacheCheck.Url

/-!
Addresses of Redis servers. An address is a URL, or a bare host and port, and names a server, a
database and credentials. The protocol version in the URL is checked, but the one that was asked
for is used.
-/

set_option autoImplicit false

namespace CacheCheck.Resp

/-- The versions of the wire protocol. -/
inductive Version
  | resp2
  | resp3
  deriving DecidableEq, Repr, Inhabited

namespace Version

def standard : Version := .resp3

def name : Version → String
  | .resp2 => "resp2"
  | .resp3 => "resp3"

def number : Version → Nat
  | .resp2 => 2
  | .resp3 => 3

/-- Reads a version by name or by number, in either case. -/
def parse (s : String) : Except Failure Version :=
  match asciiLower s with
  | "resp2" | "2" => .ok .resp2
  | "resp3" | "3" => .ok .resp3
  | _ => .error (.configuration ("unknown protocol " ++ quote s))

end Version

end CacheCheck.Resp

namespace CacheCheck.Redis

/-- Where a server listens. -/
inductive Endpoint
  | tcp (host : String) (port : Nat)
  | socket (path : List UInt8)
  deriving DecidableEq, Repr

/-- What it takes to connect. -/
structure Address where
  endpoint : Endpoint
  database : Int
  username : Option String
  password : Option String
  version : Resp.Version
  deriving DecidableEq, Repr

namespace Address

def standardPort : Nat := 6379

def invalid (description : String) (detail : Option String := none) : Fault :=
  .described .invalidClientConfig description detail

/-- The schemes of a server on a network, of which the last two are encrypted. -/
def networkSchemes : List String := ["redis", "valkey", "rediss", "valkeys"]

def encryptedSchemes : List String := ["rediss", "valkeys"]

/-- The schemes of a server on this machine. -/
def localSchemes : List String := ["unix", "redis+unix", "valkey+unix"]

/-- Reads the number of a database. -/
def databaseOf (text : String) : Except Fault Int :=
  match Decimal.signed Decimal.maxSigned64 text.toList with
  | .ok n => .ok n
  | .error _ => .error (invalid "Invalid database number")

/-- Decodes a user name or a password; an empty one is none. -/
def credential (what text : String) : Except Fault (Option String) :=
  if text = "" then .ok none
  else
    match Utf8.decode? (Percent.decode (Utf8.encode text)) with
    | some decoded => .ok (some decoded)
    | none => .error (invalid (what ++ " is not valid UTF-8 string"))

/-- Checks the protocol version that a URL asks for. -/
def checkVersion (url : Url) : Except Fault Unit :=
  match url.parameter? "protocol" with
  | none | some "2" | some "resp2" | some "3" | some "resp3" => .ok ()
  | some other => .error (invalid "Invalid protocol version" (some other))

/-- Without slashes at either end. -/
def trimSlashes (text : String) : String :=
  String.ofList ((text.toList.dropWhile (· = '/')).reverse.dropWhile (· = '/')).reverse

/-- The address of a server on a network. -/
def ofNetworkUrl (url : Url) (version : Resp.Version) : Except Fault Address :=
  match url.host with
  | none => .error (invalid "Missing hostname")
  | some host =>
    if encryptedSchemes.contains url.scheme then
      .error (invalid "can't connect with TLS, the feature is not enabled")
    else do
      let path := trimSlashes url.path
      let database ← if path = "" then .ok 0 else databaseOf path
      let username ← credential "Username" url.username
      let password ← credential "Password" (url.password.getD "")
      checkVersion url
      .ok { endpoint := .tcp host.text (url.port.getD standardPort)
            database, username, password, version }

/-- The address of a server on this machine. Its particulars are in the query. -/
def ofLocalUrl (url : Url) (version : Resp.Version) : Except Fault Address :=
  match url.file? with
  | none => .error (invalid "Missing path")
  | some path => do
    let database ←
      match url.parameter? "db" with
      | none => .ok 0
      | some text => databaseOf text
    checkVersion url
    .ok { endpoint := .socket path, database
          username := url.parameter? "user", password := url.parameter? "pass", version }

/-- Reads a URL. -/
def ofUrl (text : String) (version : Resp.Version) : Except Fault Address :=
  match Url.parse text with
  | .error _ => .error (invalid "Redis URL did not parse")
  | .ok url =>
    if networkSchemes.contains url.scheme then ofNetworkUrl url version
    else if localSchemes.contains url.scheme then ofLocalUrl url version
    else .error (invalid "Redis URL did not parse")

/-- The URL that an address stands for. -/
def url (text : String) : String :=
  Url.withScheme "redis" text

/-- Reads an address. -/
def parse (text : String) (version : Resp.Version) : Except Failure Address :=
  match ofUrl (url text) version with
  | .ok address => .ok address
  | .error fault =>
    .error (.configuration ("bad redis url " ++ quote text ++ ": " ++ fault.message))

end Address

end CacheCheck.Redis
