import CacheCheck.Client
import CacheCheck.Memcached.Endpoint

/-!
Clients of memcached. Values are written with no flags and without an expiry; a key is read one
at a time. What is sent and how the reply is read depends on the wire alone.
-/

set_option autoImplicit false

namespace CacheCheck.Memcached

/-- The longest key a client sends, in bytes. -/
def longestKey : Nat := 250

/-- The extras of a store: flags and expiry, both zero. -/
def storeExtras : List UInt8 := List.replicate 8 0

namespace Wire

/-- The bytes of a write. -/
def setRequest (wire : Wire) (key value : String) : List UInt8 :=
  match wire with
  | .binary => Request.pack ⟨0x01, 0, storeExtras, key, Utf8.encode value⟩
  | .ascii =>
    let data := Utf8.encode value
    Utf8.encode ("set " ++ key ++ " 0 0 " ++ toString data.length ++ "\r\n") ++ data ++
      [0x0D, 0x0A]

/-- The bytes of a read. -/
def getRequest (wire : Wire) (key : String) : List UInt8 :=
  match wire with
  | .binary => Request.pack ⟨0x00, 0, [], key, []⟩
  | .ascii => Utf8.encode ("get " ++ key ++ "\r\n")

end Wire

/-- A value as text. -/
def textOf (data : List UInt8) : Except Fault String :=
  match Utf8.decode? data with
  | some text => .ok text
  | none => .error (.client "the value is no text")

/-- Reads a response frame. -/
def Response.ofBytes (reply : List UInt8) : Except Fault Response :=
  let header := Header.ofBytes reply
  if header.mark ≠ responseMark then .error (.badMark header.mark.toNat)
  else
    let body := (reply.drop headerLength).take header.bodyLength
    .ok ⟨header.opcode, header.echo, header.status, body.take header.extrasLength,
      body.drop (header.extrasLength + header.keyLength)⟩

namespace TextWire

/-- The fault that a line reports where another was expected. -/
def lineFault (line : String) : Fault :=
  if line = "ERROR\r\n" then .invalidCommand
  else if "CLIENT_ERROR".toList.isPrefixOf line.toList then .client line
  else if "SERVER_ERROR".toList.isPrefixOf line.toList then .server line
  else .badResponse line

/-- Reads the value that a line announces. -/
def valueAfter (line : String) (rest : List UInt8) : Except Fault (Option String) :=
  match words line with
  | ["END"] => .ok none
  | ["VALUE", _, _, length] =>
    match Decimal.unsigned Decimal.max64 length.toList with
    | .ok length => (textOf (rest.take length)).map some
    | .error _ => .error (lineFault line)
  | _ => .error (lineFault line)

end TextWire

namespace Wire

/-- Reads the reply to a write. -/
def readStored (wire : Wire) (reply : List UInt8) : Except Fault Unit :=
  match wire with
  | .binary =>
    (Response.ofBytes reply).bind fun response ↦
      if response.status = 0 then .ok () else .error (.status response.status)
  | .ascii =>
    let line := Utf8.decodeLossy (TextWire.splitLine reply).1
    if line = "STORED\r\n" then .ok () else .error (TextWire.lineFault line)

/-- Reads the reply to a read. -/
def readValue (wire : Wire) (reply : List UInt8) : Except Fault (Option String) :=
  match wire with
  | .binary =>
    (Response.ofBytes reply).bind fun response ↦
      if response.status = 0 then (textOf response.value).map some
      else if response.status = 1 then .ok none
      else .error (.status response.status)
  | .ascii =>
    TextWire.valueAfter (Utf8.decodeLossy (TextWire.splitLine reply).1)
      (TextWire.splitLine reply).2

end Wire

variable {σ : Type}

/-- Sends a request about a key, unless the key is too long, and reads the reply. -/
def ask {α : Type} (exchange : List UInt8 → σ → List UInt8 × σ) (key : String)
    (request : List UInt8) (read : List UInt8 → Except Fault α) (state : σ) :
    Except Failure α × σ :=
  let fail (fault : Fault) : Except Failure α := .error (.command .memcached (.memcached fault))
  if longestKey < (Utf8.encode key).length then (fail .keyTooLong, state)
  else
    let (reply, state) := exchange request state
    match read reply with
    | .ok a => (.ok a, state)
    | .error fault => (fail fault, state)

/-- The log lines that come before a call. -/
def announce : Call → List LogLine
  | .set key value => [⟨.debug, "memcached: set " ++ quote key ++ " " ++ quote value⟩]
  | .get key => [⟨.debug, "memcached: get " ++ quote key⟩]

/-- A client that exchanges bytes with a server over one wire. -/
def client (wire : Wire) (exchange : List UInt8 → σ → List UInt8 × σ) : Client σ where
  backend := .memcached
  set key value state := ask exchange key (wire.setRequest key value) wire.readStored state
  get key state := ask exchange key (wire.getRequest key) wire.readValue state
  announce

/-- A client of the endpoint. -/
def Endpoint.client (wire : Wire) : Client Endpoint :=
  Memcached.client wire fun request endpoint ↦
    let (served, endpoint) := endpoint.exchange request
    (served.reply, endpoint)

end CacheCheck.Memcached
