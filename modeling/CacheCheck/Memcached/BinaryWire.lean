import CacheCheck.Memcached.Entries
import CacheCheck.Memcached.Frame

/-!
The binary protocol, served one frame at a time. Input that ends inside a header is the plain end
of a connection; input that ends inside a body breaks it, and the frame has no effect.
-/

set_option autoImplicit false

namespace CacheCheck.Memcached.BinaryWire

/-- What the next frame of an input is. -/
inductive Incoming
  | request (request : Request) (rest : List UInt8)
  | nothing
  | broken (cause : Breakdown)

/-- Cuts a body into a request. -/
def requestOf (header : Header) (body : List UInt8) : Request where
  opcode := header.opcode
  echo := header.echo
  extras := body.take header.extrasLength
  key := Utf8.decodeLossy ((body.drop header.extrasLength).take header.keyLength)
  value := body.drop (header.extrasLength + header.keyLength)

/-- Reads the next frame. -/
def incoming (input : List UInt8) : Incoming :=
  if input.length < headerLength then .nothing
  else
    let header := Header.ofBytes input
    if header.mark ≠ requestMark then .broken .badMark
    else if header.bodyLength < header.keyLength + header.extrasLength then .broken .shortBody
    else
      let rest := input.drop headerLength
      if rest.length < header.bodyLength then .broken .cutShort
      else
        .request (requestOf header (rest.take header.bodyLength)) (rest.drop header.bodyLength)

theorem length_rest_lt_of_incoming {input rest : List UInt8} {request : Request}
    (h : incoming input = .request request rest) : rest.length < input.length := by
  unfold incoming at h
  split at h
  · cases h
  · next hlong =>
    simp only at h
    split at h
    · cases h
    · split at h
      · cases h
      · split at h
        · cases h
        · cases h
          simp only [List.length_drop, headerLength] at *
          omega

/-- The operations, by their codes. -/
inductive Operation
  | get
  /-- Set, add and replace, which all store. -/
  | store
  | delete
  | quit
  | flush
  | noop
  | version
  | unknown
  deriving DecidableEq, Repr

def Operation.ofCode (code : UInt8) : Operation :=
  match code.toNat with
  | 0x00 => .get
  | 0x01 | 0x02 | 0x03 => .store
  | 0x04 => .delete
  | 0x07 => .quit
  | 0x08 => .flush
  | 0x0A => .noop
  | 0x0B => .version
  | _ => .unknown

/-- The statuses of responses. -/
def Status.success : Nat := 0x00
@[inherit_doc Status.success] def Status.keyNotFound : Nat := 0x01
@[inherit_doc Status.success] def Status.unknownCommand : Nat := 0x81

/-- The flags at the front of a store's extras; zero where there are too few bytes. -/
def flagsOf (extras : List UInt8) : UInt32 :=
  if 4 ≤ extras.length then UInt32.ofNat (ofBigEndian (extras.take 4)) else 0

/-- A response to a request. -/
def answer (request : Request) (status : Nat) (extras value : List UInt8) : List UInt8 :=
  Response.pack ⟨request.opcode, request.echo, status, extras, value⟩

/-- Carries a request out. -/
def execute (stalled : Bool) (entries : Entries) (request : Request) (rest : List UInt8) : Turn :=
  match Operation.ofCode request.opcode with
  | .version =>
    .next (answer request Status.success [] (Utf8.encode versionName)) entries rest
  | .store =>
    .next (answer request Status.success [] [])
      (entries.insert request.key ⟨flagsOf request.extras, request.value⟩) rest
  | .get =>
    if stalled then .last .stalled
    else
      match entries.get? request.key with
      | some entry =>
        .next (answer request Status.success (bigEndian 4 entry.flags.toNat) entry.data) entries
          rest
      | none =>
        .next (answer request Status.keyNotFound [] (Utf8.encode "Not found")) entries rest
  | .delete =>
    let status :=
      if (entries.get? request.key).isSome then Status.success else Status.keyNotFound
    .next (answer request status [] []) (entries.erase request.key) rest
  | .flush => .next (answer request Status.success [] []) .empty rest
  | .noop => .next (answer request Status.success [] []) entries rest
  | .quit => .last .quit
  | .unknown =>
    .next (answer request Status.unknownCommand [] (Utf8.encode "Unknown command")) entries rest

/-- Serves one frame. -/
def turn (stalled : Bool) (entries : Entries) (input : List UInt8) : Turn :=
  match incoming input with
  | .nothing => .last .closed
  | .broken cause => .last (.broken cause)
  | .request request rest => execute stalled entries request rest

theorem rest_eq_of_execute {stalled : Bool} {entries entries' : Entries} {request : Request}
    {input reply rest : List UInt8}
    (h : execute stalled entries request input = .next reply entries' rest) : rest = input := by
  unfold execute at h
  split at h
  case h_3 =>
    split at h
    · cases h
    · split at h <;> cases h <;> rfl
  all_goals
    cases h
    try rfl

theorem turn_shorter (stalled : Bool) (entries : Entries) (input reply : List UInt8)
    (entries' : Entries) (rest : List UInt8)
    (h : turn stalled entries input = .next reply entries' rest) :
    rest.length < input.length := by
  unfold turn at h
  split at h
  · cases h
  · cases h
  · next hin =>
    rw [rest_eq_of_execute h]
    exact length_rest_lt_of_incoming hin

/-- Serves a connection. -/
def serve (stalled : Bool) (entries : Entries) (input : List UInt8) : Served :=
  takeTurns (turn stalled) (turn_shorter stalled) entries input

end CacheCheck.Memcached.BinaryWire
