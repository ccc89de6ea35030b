import CacheCheck.Text.Percent
import CacheCheck.Url.Ipv6

/-!
URLs, cut into their parts. Blanks and control characters around a URL are dropped, and so are
tabs and line ends inside it. Hosts keep their case; only the schemes of the web, whose hosts are
domain names, have stricter rules, and of those only the rules that can refuse a URL are kept.
-/

set_option autoImplicit false

namespace CacheCheck

namespace Url

inductive Host
  | name (text : String)
  | ipv6 (address : Ipv6)
  deriving DecidableEq, Repr

/-- A host as it is given to a resolver. -/
def Host.text : Host → String
  | .name text => text
  | .ipv6 address => address.text

/-- Why a text is no URL. -/
inductive Fault
  | emptyHost
  | invalidDomainName
  | invalidPort
  | invalidIpv6
  | invalidHostCharacter
  | noScheme
  deriving DecidableEq, Repr

def Fault.message : Fault → String
  | .emptyHost => "empty host"
  | .invalidDomainName => "invalid international domain name"
  | .invalidPort => "invalid port number"
  | .invalidIpv6 => "invalid IPv6 address"
  | .invalidHostCharacter => "invalid domain character"
  | .noScheme => "relative URL without a base"

end Url

/-- A URL. User name and password are as written; the path is encoded, and begins with a slash
unless it is empty or there is no host to be relative to. -/
structure Url where
  scheme : String
  username : String := ""
  password : Option String := none
  host : Option Url.Host := none
  port : Option Nat := none
  path : String := ""
  query : Option String := none
  deriving DecidableEq, Repr

namespace Url

/-! ### The text around a URL -/

def isEdge (c : Char) : Bool :=
  c.toNat ≤ 0x20

/-- Without edges, tabs and line ends. -/
def clean (chars : List Char) : List Char :=
  ((chars.dropWhile isEdge).reverse.dropWhile isEdge).reverse.filter fun c ↦
    c ≠ '\t' && c ≠ '\n' && c ≠ '\r'

/-! ### Scheme -/

def isSchemeChar (c : Char) : Bool :=
  c.isAlphanum || c = '+' || c = '-' || c = '.'

/-- The scheme in lower case, and what follows its colon. -/
def scheme? (chars : List Char) : Option (String × List Char) :=
  match chars with
  | first :: _ =>
    if !first.isAlpha then none
    else
      match chars.dropWhile isSchemeChar with
      | ':' :: rest => some (String.ofList ((chars.takeWhile isSchemeChar).map Char.toLower), rest)
      | _ => none
  | [] => none

/-- The schemes whose hosts are domain names. -/
def isWebScheme (scheme : String) : Bool :=
  ["http", "https", "ws", "wss", "ftp"].contains scheme

/-! ### User name and password -/

/-- Whether a character ends the part between the double slash and the path. -/
def endsAuthority (web : Bool) (c : Char) : Bool :=
  c = '/' || c = '?' || c = '#' || (web && c = '\\')

/-- Splits at the last at sign; `none` when there is none. -/
def splitLastAt? (chars : List Char) : Option (List Char × List Char) :=
  match chars.reverse.dropWhile (· ≠ '@') with
  | [] => none
  | _ :: before =>
    some (before.reverse, (chars.reverse.takeWhile (· ≠ '@')).reverse)

/-- The user name and the password, and what follows them. -/
def userinfo (web : Bool) (chars : List Char) :
    Except Fault ((String × Option String) × List Char) :=
  let authority := chars.takeWhile (!endsAuthority web ·)
  let rest := chars.dropWhile (!endsAuthority web ·)
  match splitLastAt? authority with
  | none => .ok (("", none), chars)
  | some ([], []) => if rest.isEmpty then .ok (("", none), []) else .error .emptyHost
  | some (info, after) =>
    let password := (info.dropWhile (· ≠ ':')).drop 1
    .ok ((String.ofList (info.takeWhile (· ≠ ':')),
      if password.isEmpty then none else some (String.ofList password)), after ++ rest)

/-! ### Host and port -/

/-- The characters of a host, and what follows them. A colon ends it outside brackets only. -/
def hostSpan (web : Bool) : Bool → List Char → List Char × List Char
  | _, [] => ([], [])
  | inside, c :: rest =>
    if endsAuthority web c || (c = ':' && !inside) then ([], c :: rest)
    else
      let (host, after) := hostSpan web (c = '[' || (inside && c ≠ ']')) rest
      (c :: host, after)

/-- The characters no host may hold. -/
def isForbidden (c : Char) : Bool :=
  "\x00\t\n\r #/:<>?@[\\]^|".toList.contains c

/-- The characters no domain name may hold. -/
def isForbiddenInDomain (c : Char) : Bool :=
  isForbidden c || c.toNat ≤ 0x20 || c = '%' || c.toNat = 0x7F

/-- A host in brackets. -/
def bracketed (chars : List Char) : Except Fault Host :=
  match chars.reverse with
  | ']' :: inner =>
    match Ipv6.parse? inner.reverse with
    | some address => .ok (.ipv6 address)
    | none => .error .invalidIpv6
  | _ => .error .invalidIpv6

/-- A host outside the web: anything without a forbidden character. -/
def opaqueHost (chars : List Char) : Except Fault (Option Host) :=
  match chars with
  | [] => .ok none
  | '[' :: inside => (bracketed inside).map some
  | _ =>
    if chars.any isForbidden then .error .invalidHostCharacter
    else .ok (some (.name (String.ofList (Percent.encodeControls chars))))

/-- A host of the web: a domain name, after percent signs are decoded. -/
def domainHost (chars : List Char) : Except Fault (Option Host) :=
  match chars with
  | [] => .error .emptyHost
  | '[' :: inside => (bracketed inside).map some
  | _ =>
    match Utf8.decode? (Percent.decode (Utf8.encode (String.ofList chars))) with
    | none => .error .invalidDomainName
    | some name =>
      if name.toList.any isForbiddenInDomain then .error .invalidDomainName
      else .ok (some (.name (name.map Char.toLower)))

/-- Reads the digits of a port, up to the path. -/
def portDigits : Option Nat → List Char → Except Fault (Option Nat × List Char)
  | port, [] => .ok (port, [])
  | port, c :: rest =>
    if c.isDigit then
      let port := port.getD 0 * 10 + (c.toNat - '0'.toNat)
      if port < Nat.pow 2 16 then portDigits (some port) rest else .error .invalidPort
    else if endsAuthority true c then .ok (port, c :: rest)
    else .error .invalidPort

/-- Reads the port if there is one. -/
def portAfter (chars : List Char) : Except Fault (Option Nat × List Char) :=
  match chars with
  | ':' :: rest => portDigits none rest
  | _ => .ok (none, chars)

/-! ### Path and query -/

def isQueryOrFragment (c : Char) : Bool :=
  c = '?' || c = '#'

/-- The characters a path is written with as they are. -/
def keptInPath (c : Char) : Bool :=
  !" \"<>\x60#?\x7b\x7d".toList.contains c

/-- A segment that stands for the place it is in. -/
def isSingleDot (segment : List Char) : Bool :=
  [".", "%2e"].contains (String.ofList (segment.map Char.toLower))

/-- A segment that stands for the place above. -/
def isDoubleDot (segment : List Char) : Bool :=
  ["..", ".%2e", "%2e.", "%2e%2e"].contains (String.ofList (segment.map Char.toLower))

/-- A segment that names a drive, which no step upwards leaves. -/
def isDrive : List Char → Bool
  | [letter, mark] => letter.isAlpha && (mark = ':' || mark = '|')
  | _ => false

/-- One step upwards. The latest segment comes first. -/
def stepUp : List (List Char) → List (List Char)
  | [] => []
  | segment :: before => if isDrive segment then segment :: before else before

/-- The segments of a path, each step upwards taken; the latest comes first. -/
def resolve : List (List Char) → List (List Char) → List (List Char)
  | done, [] => done
  | done, [last] =>
    if isDoubleDot last then [] :: stepUp done
    else if isSingleDot last then [] :: done
    else last :: done
  | done, segment :: rest =>
    if isDoubleDot segment then resolve (stepUp done) rest
    else if isSingleDot segment then resolve done rest
    else resolve (segment :: done) rest

/-- The path made of the characters after its first slash. -/
def pathOf (chars : List Char) : String :=
  let segments := (chars.splitOn '/').map (Percent.encode keptInPath)
  String.ofList <| (resolve [] segments).reverse.flatMap ('/' :: ·)

/-- The path behind a host. -/
def hostPath (web : Bool) (chars : List Char) : String :=
  let chars := if web then chars.map fun c ↦ if c = '\\' then '/' else c else chars
  match chars with
  | '/' :: rest => pathOf rest
  | [] => if web then "/" else ""
  | _ => pathOf chars

/-- The path where there is no host. -/
def loosePath (chars : List Char) : String :=
  match chars with
  | '/' :: rest => pathOf rest
  | _ => String.ofList (Percent.encodeControls chars)

/-- The query behind a path, up to the fragment. -/
def queryOf (chars : List Char) : Option String :=
  match chars with
  | '?' :: rest => some (String.ofList (rest.takeWhile (· ≠ '#')))
  | _ => none

/-! ### Whole URLs -/

/-- Reads what follows the double slash. -/
def withAuthority (scheme : String) (web : Bool) (chars : List Char) : Except Fault Url := do
  let ((username, password), rest) ← userinfo web chars
  let (hostChars, rest) := hostSpan web false rest
  let host ← if web then domainHost hostChars else opaqueHost hostChars
  if host.isNone && rest.head? = some ':' then throw .emptyHost
  let (port, rest) ← portAfter rest
  if host.isNone && (username ≠ "" || password.isSome) then throw .emptyHost
  let path := hostPath web (rest.takeWhile (!isQueryOrFragment ·))
  let query := queryOf (rest.dropWhile (!isQueryOrFragment ·))
  return { scheme, username, password, host, port, path, query }

/-- Reads a URL. -/
def parse (text : String) : Except Fault Url :=
  match scheme? (clean text.toList) with
  | none => .error .noScheme
  | some (scheme, rest) =>
    if isWebScheme scheme then
      withAuthority scheme true (rest.dropWhile fun c ↦ c = '/' || c = '\\')
    else
      match rest with
      | '/' :: '/' :: rest => withAuthority scheme false rest
      | _ =>
        .ok { scheme
              path := loosePath (rest.takeWhile (!isQueryOrFragment ·))
              query := queryOf (rest.dropWhile (!isQueryOrFragment ·)) }

/-- The pairs of the query. -/
def parameters (url : Url) : List (String × String) :=
  Percent.formPairs (url.query.getD "")

/-- The value of the last parameter with a name. -/
def parameter? (url : Url) (name : String) : Option String :=
  Percent.lastValue? url.parameters name

/-- The file that the path of a local URL names. A path that ends in the name of a drive is that
of the drive's root. -/
def file? (url : Url) : Option (List UInt8) :=
  match url.host, url.path.toList with
  | some (.name "localhost"), '/' :: path | none, '/' :: path =>
    let bytes := (path.splitOn '/').flatMap fun segment ↦
      0x2F :: Percent.decode (Utf8.encode (String.ofList segment))
    match bytes.reverse with
    | mark :: letter :: _ :: _ =>
      some (if isDrive [Char.ofNat letter.toNat, Char.ofNat mark.toNat] then bytes ++ [0x2F]
        else bytes)
    | _ => some bytes
  | _, _ => none

/-! ### Bare addresses -/

/-- Whether a text occurs in another. -/
def occursIn (needle : List Char) : List Char → Bool
  | [] => needle.isEmpty
  | c :: rest => needle.isPrefixOf (c :: rest) || occursIn needle rest

/-- Whether an address is written as a URL. -/
def hasScheme (address : String) : Bool :=
  occursIn "://".toList address.toList || "unix:".toList.isPrefixOf address.toList

/-- An address as a URL: one without a scheme is given one. -/
def withScheme (scheme address : String) : String :=
  if hasScheme address then address else scheme ++ "://" ++ address

end Url

end CacheCheck
