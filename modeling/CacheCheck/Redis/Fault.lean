/-!
What can go wrong between a program and a Redis server, and the text it is reported with.
-/

set_option autoImplicit false

namespace CacheCheck.Redis

/-- The class of a fault. -/
inductive FaultKind
  | response | parse | authenticationFailed | type | execAbort | busyLoading | noScript
  | invalidClientConfig | moved | ask | tryAgain | clusterDown | crossSlot | masterDown | io
  | client | extensionCode | readOnly | masterNameNotFound | noValidReplicas | emptySentinelList
  | notBusy | clusterConnectionNotFound | noSub | resp3NotSupported
  deriving DecidableEq, Repr, Inhabited

namespace FaultKind

def name : FaultKind → String
  | .response => "ResponseError"
  | .parse => "ParseError"
  | .authenticationFailed => "AuthenticationFailed"
  | .type => "TypeError"
  | .execAbort => "ExecAbortError"
  | .busyLoading => "BusyLoadingError"
  | .noScript => "NoScriptError"
  | .invalidClientConfig => "InvalidClientConfig"
  | .moved => "Moved"
  | .ask => "Ask"
  | .tryAgain => "TryAgain"
  | .clusterDown => "ClusterDown"
  | .crossSlot => "CrossSlot"
  | .masterDown => "MasterDown"
  | .io => "IoError"
  | .client => "ClientError"
  | .extensionCode => "ExtensionError"
  | .readOnly => "ReadOnly"
  | .masterNameNotFound => "MasterNameNotFoundBySentinel"
  | .noValidReplicas => "NoValidReplicasFoundBySentinel"
  | .emptySentinelList => "EmptySentinelList"
  | .notBusy => "NotBusy"
  | .clusterConnectionNotFound => "ClusterConnectionNotFound"
  | .noSub => "NoSub"
  | .resp3NotSupported => "RESP3NotSupported"

def all : List FaultKind :=
  [.response, .parse, .authenticationFailed, .type, .execAbort, .busyLoading, .noScript,
    .invalidClientConfig, .moved, .ask, .tryAgain, .clusterDown, .crossSlot, .masterDown, .io,
    .client, .extensionCode, .readOnly, .masterNameNotFound, .noValidReplicas,
    .emptySentinelList, .notBusy, .clusterConnectionNotFound, .noSub, .resp3NotSupported]

def ofName? (s : String) : Option FaultKind :=
  all.find? (·.name = s)

/-- The class that an error code, the first word of a server's error line, stands for. -/
def ofCode? : String → Option FaultKind
  | "ERR" => some .response
  | "EXECABORT" => some .execAbort
  | "LOADING" => some .busyLoading
  | "NOSCRIPT" => some .noScript
  | "MOVED" => some .moved
  | "ASK" => some .ask
  | "TRYAGAIN" => some .tryAgain
  | "CLUSTERDOWN" => some .clusterDown
  | "CROSSSLOT" => some .crossSlot
  | "MASTERDOWN" => some .masterDown
  | "READONLY" => some .readOnly
  | "NOTBUSY" => some .notBusy
  | "NOSUB" => some .noSub
  | _ => none

end FaultKind

inductive Fault
  /-- A fault with a fixed description and, sometimes, the particulars of the case. -/
  | described (kind : FaultKind) (description : String) (detail : Option String)
  /-- A server's error under a code that is not a known one. -/
  | unknownCode (code : String) (detail : Option String)
  /-- A failure of the operating system to send or to receive. -/
  | system (description : String)
  deriving DecidableEq, Repr, Inhabited

namespace Fault

def kind : Fault → FaultKind
  | .described kind _ _ => kind
  | .unknownCode _ _ => .extensionCode
  | .system _ => .io

def message : Fault → String
  | .described kind description none => description ++ "- " ++ kind.name
  | .described kind description (some detail) =>
    description ++ " - " ++ kind.name ++ ": " ++ detail
  | .unknownCode code detail =>
    code ++ ": " ++ detail.getD "Unknown extension error encountered"
  | .system description => description

/-- The fault and what caused it, outermost first. -/
def chain (fault : Fault) : List String :=
  match fault with
  | .system description => [description, description]
  | _ => [fault.message]

end Fault

/-- A server's error line, cut at its first blank into a code and the particulars. -/
structure ErrorLine where
  code : String
  detail : Option String
  deriving DecidableEq, Repr, Inhabited

namespace ErrorLine

def ofLine (line : String) : ErrorLine :=
  let chars := line.toList
  { code := String.ofList (chars.takeWhile (· ≠ ' '))
    detail :=
      match chars.dropWhile (· ≠ ' ') with
      | [] => none
      | _ :: rest => some (String.ofList rest) }

/-- The fault that a caller is given for the line. -/
def fault (line : ErrorLine) : Fault :=
  match FaultKind.ofCode? line.code with
  | some kind => .described kind "An error was signalled by the server" line.detail
  | none => .unknownCode line.code line.detail

/-- The line as it was received. -/
def text (line : ErrorLine) : String :=
  match line.detail with
  | none => line.code
  | some detail => line.code ++ ": " ++ detail

end ErrorLine

end CacheCheck.Redis
