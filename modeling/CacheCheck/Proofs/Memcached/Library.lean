import CacheCheck.Memcached.Cache
import CacheCheck.Proofs.Contents
import CacheCheck.Proofs.Memcached.Delivery

/-!
Clients that leave the wire to a library. The library writes requests and reads replies
(`Library`); the client takes what the library wrote to an endpoint, and reports the faults of the
library as its own. Of the library it is only asked that, for keys of up to 250 bytes, it writes the
set or the get that the wire has for the call, and understands the replies which the wire has for
those (`Library.Speaks`).

Such a client refines contents, for keys and values that both wires can carry, whatever takes its
requests to the endpoint (`Library.client_refines`). The client of this project is one of them: its
own way to write and read the wires is such a library (`Library.ofWire_speaks`).
-/

set_option autoImplicit false

namespace CacheCheck.Memcached

/-! ### Replies -/

namespace Wire

/-- The reply to a set. -/
def stored (wire : Wire) (echo : UInt32) : List UInt8 :=
  match wire with
  | .binary => Response.pack ⟨0x01, echo, 0, [], []⟩
  | .ascii => Utf8.encode "STORED\r\n"

/-- The reply to a get of a key whose value was set without flags. -/
def hit (wire : Wire) (echo : UInt32) (key value : String) : List UInt8 :=
  match wire with
  | .binary => Response.pack ⟨0x00, echo, 0, [0, 0, 0, 0], Utf8.encode value⟩
  | .ascii =>
    Utf8.encode ("VALUE " ++ key ++ " 0 " ++ toString (Utf8.encode value).length ++ "\r\n") ++
      Utf8.encode value ++ Utf8.encode "\r\nEND\r\n"

/-- The reply to a get of a key that is absent. Frames have room for a note. -/
def miss (wire : Wire) (echo : UInt32) (note : List UInt8) : List UInt8 :=
  match wire with
  | .binary => Response.pack ⟨0x00, echo, 1, [], note⟩
  | .ascii => Utf8.encode "END\r\n"

theorem reply_set (wire : Wire) {demand : Demand} {key : Key} {data : List UInt8}
    {fits : 8 + (Utf8.encode key.text).length + data.length < wordLimit}
    (haccess : demand.access = .set key 0 data fits) (hnoreply : demand.noreply = false)
    (space : KeySpace) : wire.reply space demand = wire.stored demand.echo := by
  obtain ⟨access, expiry, long, noreply, echo, reserved, lifetime⟩ := demand
  obtain rfl : access = _ := haccess
  obtain rfl : noreply = false := hnoreply
  cases wire <;> rfl

theorem reply_get_some (wire : Wire) {demand : Demand} {key : Key} {value : String}
    (haccess : demand.access = .get key) (hlong : demand.long = false) {space : KeySpace}
    (hspace : space key.text = some ⟨0, Utf8.encode value⟩) :
    wire.reply space demand = wire.hit demand.echo key.text value := by
  obtain ⟨access, expiry, long, noreply, echo, reserved, lifetime⟩ := demand
  obtain rfl : access = _ := haccess
  obtain rfl : long = false := hlong
  cases wire with
  | binary =>
    have hresponse : Request.response space ⟨0x00, echo, [], key.text, []⟩ =
        ⟨0x00, echo, 0, bigEndian 4 0, Utf8.encode value⟩ := by
      simp [Request.response, hspace, Request.respond]
    exact congrArg Response.pack hresponse
  | ascii =>
    have hflags : " " ++ (toString (0 : UInt32).toNat ++ " ") = " 0 " := rfl
    have hend : Utf8.encode "\r\nEND\r\n" = Utf8.encode "\r\n" ++ Utf8.encode "END\r\n" :=
      Utf8.encode_append "\r\n" "END\r\n"
    simp only [reply, Demand.order, TextWire.Order.reply, TextWire.Order.found, hit, hspace,
      List.flatMap_singleton, Bool.false_eq_true, if_false, String.append_empty, hend, ← hflags,
      String.append_assoc, List.append_assoc]

theorem reply_get_none (wire : Wire) {demand : Demand} {key : Key}
    (haccess : demand.access = .get key) {space : KeySpace} (hspace : space key.text = none) :
    wire.reply space demand = wire.miss demand.echo (Utf8.encode "Not found") := by
  obtain ⟨access, expiry, long, noreply, echo, reserved, lifetime⟩ := demand
  obtain rfl : access = _ := haccess
  cases wire with
  | binary =>
    have hresponse : Request.response space ⟨0x00, echo, [], key.text, []⟩ =
        ⟨0x00, echo, 1, [], Utf8.encode "Not found"⟩ := by
      simp [Request.response, hspace, Request.respond]
    exact congrArg Response.pack hresponse
  | ascii => simp [reply, Demand.order, TextWire.Order.reply, TextWire.Order.found, miss, hspace]

end Wire

/-! ### Libraries -/

variable {σ : Type}

/-- Takes a request that could be written to an endpoint, and reads the reply. -/
def Transport.call {α : Type} (transport : Transport σ) (request : Except Fault (List UInt8))
    (read : List UInt8 → Except Fault α) (state : σ) : Except Failure α × σ :=
  let fail (fault : Fault) : Except Failure α := .error (.command .memcached (.memcached fault))
  match request with
  | .error fault => (fail fault, state)
  | .ok request =>
    let (reply, state) := transport.exchange request state
    match read reply with
    | .ok a => (.ok a, state)
    | .error fault => (fail fault, state)

theorem Transport.call_of_ok {α : Type} {transport : Transport σ} {request reply : List UInt8}
    {read : List UInt8 → Except Fault α} {state next : σ} {a : α}
    (hexchange : transport.exchange request state = (reply, next)) (hread : read reply = .ok a) :
    transport.call (.ok request) read state = (.ok a, next) := by
  simp only [call, hexchange, hread]

/-- What a client leaves to a library: how requests are written, and what replies say. -/
structure Library where
  setRequest : String → String → Except Fault (List UInt8)
  getRequest : String → Except Fault (List UInt8)
  readStored : List UInt8 → Except Fault Unit
  readValue : String → List UInt8 → Except Fault (Option String)

namespace Library

/-- The client of an endpoint that a library makes. -/
def client (library : Library) (transport : Transport σ) : Client σ where
  backend := .memcached
  set key value := transport.call (library.setRequest key value) library.readStored
  get key := transport.call (library.getRequest key) (library.readValue key)
  announce := announce

/-- A library writes requests as a wire has them, and understands the replies to them. The number
of a request, the fields of a header that nobody looks at and the expiry are its own choice. -/
structure Speaks (library : Library) (wire : Wire) : Prop where
  /-- A write is a set without flags, and is to be answered. -/
  set (key : Key) (value : String)
    (fits : 8 + (Utf8.encode key.text).length + (Utf8.encode value).length < wordLimit) :
    (Utf8.encode key.text).length ≤ longestKey →
      ∃ demand : Demand, demand.access = .set key 0 (Utf8.encode value) fits ∧
        demand.noreply = false ∧
        library.setRequest key.text value = .ok (wire.bytes demand) ∧
        library.readStored (wire.stored demand.echo) = .ok ()
  /-- A read is a get of one key. -/
  get (key : Key) : (Utf8.encode key.text).length ≤ longestKey →
    ∃ demand : Demand, demand.access = .get key ∧ demand.long = false ∧
      library.getRequest key.text = .ok (wire.bytes demand) ∧
      (∀ value, (Utf8.encode value).length ≤ longestValue →
        library.readValue key.text (wire.hit demand.echo key.text value) = .ok (some value)) ∧
      ∀ note, note.length < wordLimit →
        library.readValue key.text (wire.miss demand.echo note) = .ok none

end Library

/-! ### Libraries that refine contents -/

/-- The space of an endpoint that has these contents. -/
def spaceOf (contents : Contents) : KeySpace := fun key ↦
  (contents key).map fun value ↦ ⟨0, Utf8.encode value⟩

theorem spaceOf_put (contents : Contents) (key value : String) :
    spaceOf (contents.put key value) = (spaceOf contents).put key ⟨0, Utf8.encode value⟩ := by
  funext other
  by_cases h : other = key <;> simp [spaceOf, Contents.put, KeySpace.put, h]

/-- A key that both wires carry, and that is not too long for a library. -/
structure IsKey (text : String) : Prop where
  nonempty : text ≠ ""
  noBlank : ∀ c ∈ text.toList, isBlank c = false
  short : (Utf8.encode text).length ≤ longestKey

instance (text : String) : Decidable (IsKey text) :=
  decidable_of_iff (text ≠ "" ∧ text.toList.any isBlank = false ∧
      (Utf8.encode text).length ≤ longestKey)
    ⟨fun ⟨hsome, hblank, hshort⟩ ↦ ⟨hsome, by simpa using hblank, hshort⟩,
      fun h ↦ ⟨h.nonempty, by simpa using h.noBlank, h.short⟩⟩

/-- The key that a text is. -/
def IsKey.key {text : String} (h : IsKey text) : Key where
  text := text
  nonempty := h.nonempty
  noBlank := h.noBlank
  fits := Nat.le_trans h.short (by decide)

/-- A call that both wires carry: a value that is written fits into a frame with its key. -/
def IsSendable : Call → Prop
  | .set key value => IsKey key ∧
    8 + (Utf8.encode key).length + (Utf8.encode value).length < wordLimit
  | .get key => IsKey key

instance : DecidablePred IsSendable
  | .set key value => inferInstanceAs (Decidable (IsKey key ∧
      8 + (Utf8.encode key).length + (Utf8.encode value).length < wordLimit))
  | .get key => inferInstanceAs (Decidable (IsKey key))

/-- A state that keeps contents, whose values can be sent back. -/
structure Holds (keeps : σ → KeySpace → Prop) (state : σ) (contents : Contents) : Prop where
  keeps : keeps state (spaceOf contents)
  fits : (spaceOf contents).Fits

/-- Assumes: a library that speaks a wire, and a transport that delivers the wire. The client that
they make is its contents, to all calls that both wires carry. -/
theorem Library.client_refines {library : Library} {wire : Wire} {transport : Transport σ}
    {keeps : σ → KeySpace → Prop} (hspeaks : library.Speaks wire)
    (hdelivers : transport.Delivers wire keeps) :
    (library.client transport).Refines IsSendable (Holds keeps) where
  set {state contents key value} hholds hsendable := by
    obtain ⟨hkey, hfits⟩ := hsendable
    obtain ⟨demand, haccess, hnoreply, hrequest, hread⟩ :=
      hspeaks.set hkey.key value hfits hkey.short
    obtain ⟨next, hexchange, hnext⟩ := hdelivers.exchange_eq demand hholds.keeps
    rw [wire.reply_set haccess hnoreply] at hexchange
    have hspace : demand.access.apply (spaceOf contents) = spaceOf (contents.put key value) := by
      rw [haccess, spaceOf_put]
      rfl
    refine ⟨next, ?_, hspace ▸ hnext, hspace ▸ Access.fits_apply hholds.fits demand.access⟩
    change transport.call (library.setRequest hkey.key.text value) library.readStored state = _
    rw [hrequest]
    exact Transport.call_of_ok hexchange hread
  get {state contents key} hholds hkey := by
    obtain ⟨demand, haccess, hlong, hrequest, hhit, hmiss⟩ := hspeaks.get hkey.key hkey.short
    obtain ⟨next, hexchange, hnext⟩ := hdelivers.exchange_eq demand hholds.keeps
    have hspace : demand.access.apply (spaceOf contents) = spaceOf contents := by
      rw [haccess]
      rfl
    refine ⟨next, ?_, hspace ▸ hnext, hholds.fits⟩
    change transport.call (library.getRequest hkey.key.text) (library.readValue key) state = _
    rw [hrequest]
    cases hvalue : contents key with
    | none =>
      have habsent : spaceOf contents hkey.key.text = none := by
        change (contents key).map _ = none
        rw [hvalue, Option.map_none]
      rw [wire.reply_get_none haccess habsent] at hexchange
      exact Transport.call_of_ok hexchange (hmiss _ (by decide))
    | some value =>
      have hpresent : spaceOf contents hkey.key.text = some ⟨0, Utf8.encode value⟩ := by
        change (contents key).map _ = _
        rw [hvalue, Option.map_some]
      rw [wire.reply_get_some haccess hlong hpresent] at hexchange
      exact Transport.call_of_ok hexchange (hhit value (hholds.fits key _ hpresent))

/-! ### The library of this project -/

/-- A response that comes alone is read as it was sent. -/
theorem Response.ofBytes_pack_alone {response : Response} (h : response.Fits) :
    Response.ofBytes response.pack = .ok response := by
  have hread := Response.ofBytes_pack h []
  rwa [List.append_nil] at hread

/-- A line is taken off as the tokens that it was made of. -/
theorem TextWire.splitLine_tokens (line : List Token) (rest : List UInt8) :
    let input := Utf8.encode (" ".intercalate (line.map Token.text) ++ "\r\n") ++ rest
    let text := Utf8.decodeLossy (TextWire.splitLine input).1
    words text = line.map Token.text ∧ (TextWire.splitLine input).2 = rest := by
  have hsplit := TextWire.splitLine_encode (TextWire.newline_not_mem_intercalate line) rest
  simp only [hsplit, Utf8.decodeLossy_encode]
  exact ⟨words_intercalate line (by decide) (by simp [isBlank]), trivial⟩

namespace Wire

theorem setRequest_eq (wire : Wire) (key : Key) (value : String)
    (fits : 8 + (Utf8.encode key.text).length + (Utf8.encode value).length < wordLimit) :
    wire.setRequest key.text value =
      wire.bytes { access := .set key 0 (Utf8.encode value) fits } := by
  cases wire with
  | binary =>
    have hextras : storeExtras = Demand.setExtras 0 0 := by decide
    rw [setRequest, hextras]
    rfl
  | ascii =>
    have hname : "set" ++ " " = "set " := rfl
    have hzeros : " " ++ (toString 0 ++ (" " ++ (toString 0 ++ " "))) = " 0 0 " := rfl
    have hflags : (0 : UInt32).toNat = 0 := rfl
    simp only [setRequest, bytes, Demand.order, TextWire.Order.bytes, TextWire.Order.tokens,
      TextWire.Order.tail, Token.word, Token.number, Bool.false_eq_true, if_false, List.append_nil,
      List.map_cons, List.map_nil, String.intercalate_cons_cons, String.intercalate_singleton,
      ← hname, ← hzeros, hflags, String.append_assoc, List.append_assoc]

theorem getRequest_eq (wire : Wire) (key : Key) :
    wire.getRequest key.text = wire.bytes { access := .get key } := by
  cases wire with
  | binary => rfl
  | ascii =>
    have hname : "get" ++ " " = "get " := rfl
    simp only [getRequest, bytes, Demand.order, TextWire.Order.bytes, TextWire.Order.tokens,
      TextWire.Order.tail, Token.word, List.append_nil, List.map_cons, List.map_nil,
      String.intercalate_cons_cons, String.intercalate_singleton, ← hname]

theorem readStored_stored (wire : Wire) (echo : UInt32) :
    wire.readStored (wire.stored echo) = .ok () := by
  cases wire with
  | binary =>
    have hfits : (Response.mk 0x01 echo 0 [] []).Fits :=
      ⟨Nat.zero_le _, Nat.zero_le _, Nat.zero_lt_succ _⟩
    rw [readStored, stored, Response.ofBytes_pack_alone hfits]
    rfl
  | ascii =>
    have hsplit := @TextWire.splitLine_encode "STORED" (by decide) []
    have hline : "STORED" ++ "\r\n" = "STORED\r\n" := rfl
    rw [List.append_nil, hline] at hsplit
    rw [readStored, stored, hsplit, Utf8.decodeLossy_encode]
    rfl

theorem readValue_hit (wire : Wire) (echo : UInt32) (key : Key) {value : String}
    (hvalue : (Utf8.encode value).length ≤ longestValue) :
    wire.readValue (wire.hit echo key.text value) = .ok (some value) := by
  have htext : textOf (Utf8.encode value) = .ok value := by
    rw [textOf, Utf8.decode?_encode]
  change (Utf8.encode value).length ≤ 4294967291 at hvalue
  cases wire with
  | binary =>
    have hfits : (Response.mk 0x00 echo 0 [0, 0, 0, 0] (Utf8.encode value)).Fits := by
      refine ⟨(by decide : 4 ≤ 255), Nat.zero_le _, ?_⟩
      change 4 + (Utf8.encode value).length < 4294967296
      omega
    rw [readValue, hit, Response.ofBytes_pack_alone hfits]
    change (textOf (Utf8.encode value)).map some = _
    rw [htext]
    rfl
  | ascii =>
    have hname : "VALUE" ++ " " = "VALUE " := rfl
    have hzero : " " ++ (toString 0 ++ " ") = " 0 " := rfl
    obtain ⟨hwords, hrest⟩ := TextWire.splitLine_tokens
      [.word "VALUE" (by decide) rfl, key.toToken, .number 0, .number (Utf8.encode value).length]
      (Utf8.encode value ++ Utf8.encode "\r\nEND\r\n")
    have hlength := @TextWire.unsigned_length (Utf8.encode value).length (by
      change (Utf8.encode value).length + 2 < 9223372036854775808
      omega)
    simp only [List.map_cons, List.map_nil, Token.word, Token.number, String.intercalate_cons_cons,
      String.intercalate_singleton, String.append_assoc] at hwords hrest
    simp only [readValue, hit, TextWire.valueAfter, ← hname, ← hzero, String.append_assoc,
      List.append_assoc, hwords, hrest, hlength, List.take_left, htext]
    rfl

theorem readValue_miss (wire : Wire) (echo : UInt32) {note : List UInt8}
    (hnote : note.length < wordLimit) :
    wire.readValue (wire.miss echo note) = .ok none := by
  cases wire with
  | binary =>
    have hfits : (Response.mk 0x00 echo 1 [] note).Fits := by
      refine ⟨Nat.zero_le _, (by decide : 1 ≤ 65535), ?_⟩
      change 0 + note.length < wordLimit
      rwa [Nat.zero_add]
    rw [readValue, miss, Response.ofBytes_pack_alone hfits]
    rfl
  | ascii =>
    obtain ⟨hwords, -⟩ := TextWire.splitLine_tokens [.word "END" (by decide) rfl] []
    have hline : "END" ++ "\r\n" = "END\r\n" := rfl
    simp only [List.map_cons, List.map_nil, Token.word, String.intercalate_singleton,
      List.append_nil, hline] at hwords
    simp only [readValue, miss, TextWire.valueAfter, hwords]

end Wire

namespace Library

/-- What this project writes and reads itself, unless a key is too long. -/
def ofWire (wire : Wire) : Library where
  setRequest key value := request key (wire.setRequest key value)
  getRequest key := request key (wire.getRequest key)
  readStored := wire.readStored
  readValue _ := wire.readValue
where
  request (key : String) (bytes : List UInt8) : Except Fault (List UInt8) :=
    if longestKey < (Utf8.encode key).length then .error .keyTooLong else .ok bytes

theorem ofWire_speaks (wire : Wire) : (ofWire wire).Speaks wire where
  set key value fits hshort := by
    refine ⟨{ access := .set key 0 (Utf8.encode value) fits }, rfl, rfl, ?_,
      wire.readStored_stored 0⟩
    exact (if_neg (Nat.not_lt.mpr hshort)).trans (congrArg _ (wire.setRequest_eq key value fits))
  get key hshort := by
    refine ⟨{ access := .get key }, rfl, rfl, ?_, fun value ↦ wire.readValue_hit 0 key,
      fun note ↦ wire.readValue_miss 0⟩
    exact (if_neg (Nat.not_lt.mpr hshort)).trans (congrArg _ (wire.getRequest_eq key))

/-- The client of an endpoint is the one that this library makes. -/
theorem client_ofWire (wire : Wire) : (ofWire wire).client .apart = Endpoint.client wire := by
  have hcall {α : Type} (key : String) (bytes : List UInt8) (read : List UInt8 → Except Fault α)
      (endpoint : Endpoint) :
      Transport.apart.call (ofWire.request key bytes) read endpoint =
        ask Transport.apart.exchange key bytes read endpoint := by
    unfold ofWire.request ask
    by_cases hlong : longestKey < (Utf8.encode key).length
    · rw [if_pos hlong, if_pos hlong]
      rfl
    · rw [if_neg hlong, if_neg hlong]
      rfl
  unfold client Endpoint.client Memcached.client
  congr
  · funext key value endpoint
    exact hcall key _ _ endpoint
  · funext key endpoint
    exact hcall key _ _ endpoint

end Library

end CacheCheck.Memcached
