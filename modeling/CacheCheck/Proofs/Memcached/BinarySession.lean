import CacheCheck.Proofs.Memcached.Conversation
import CacheCheck.Proofs.Memcached.FrameCodec

/-!
The binary protocol refines a map. What a request does to the key space and what it is answered with
depend on its opcode alone: three opcodes store and none of them looks at what is there; opcodes
that nobody knows are answered as such and do nothing. A frame is one turn of the server
(`turn_of_incoming`), and a response repeats the opcode and the number of the request it answers.

A response says how long it is in four bytes. Beside the flags there is room for values of
`longestValue` bytes; while no longer ones are stored, which is the invariant of a session
(`KeySpace.Fits`), everything that is sent can be read back. So a connection that is sent frames one
behind the other answers each of them before the first quit, and none from there on
(`serve_packets`).
-/

set_option autoImplicit false

namespace CacheCheck.Memcached

/-! ### What requests mean -/

/-- The longest value that a response holds beside four bytes of flags. -/
def longestValue : Nat := wordLimit - 5

/-- No value is too long for a response. -/
def KeySpace.Fits (space : KeySpace) : Prop :=
  ∀ key entry, space key = some entry → entry.data.length ≤ longestValue

namespace KeySpace

theorem fits_empty : empty.Fits := by
  intro key entry hentry
  cases hentry

theorem fits_put {space : KeySpace} (h : space.Fits) {key : String} {entry : Entry}
    (hentry : entry.data.length ≤ longestValue) : (space.put key entry).Fits := by
  intro other found hfound
  unfold put at hfound
  split at hfound
  · cases hfound
    exact hentry
  · exact h other found hfound

theorem fits_remove {space : KeySpace} (h : space.Fits) {key : String} :
    (space.remove key).Fits := by
  intro other found hfound
  unfold remove at hfound
  split at hfound
  · cases hfound
  · exact h other found hfound

end KeySpace

namespace Request

/-- The flags that a store sends: the first four of its extras, the highest byte first; zero where
there are fewer. -/
def flags (request : Request) : UInt32 :=
  match request.extras with
  | first :: second :: third :: fourth :: _ =>
    UInt32.ofNat
      (((first.toNat * 256 + second.toNat) * 256 + third.toNat) * 256 + fourth.toNat)
  | _ => 0

/-- What a request does to the key space. -/
def apply (space : KeySpace) (request : Request) : KeySpace :=
  match request.opcode.toNat with
  | 0x01 | 0x02 | 0x03 => space.put request.key ⟨request.flags, request.value⟩
  | 0x04 => space.remove request.key
  | 0x08 => .empty
  | _ => space

/-- A response to a request repeats its opcode and its number. -/
def respond (request : Request) (status : Nat) (extras value : List UInt8) : Response where
  opcode := request.opcode
  echo := request.echo
  status := status
  extras := extras
  value := value

/-- What a request is answered with. -/
def response (space : KeySpace) (request : Request) : Response :=
  match request.opcode.toNat with
  | 0x00 =>
    match space request.key with
    | some entry => request.respond 0 (bigEndian 4 entry.flags.toNat) entry.data
    | none => request.respond 1 [] (Utf8.encode "Not found")
  | 0x01 | 0x02 | 0x03 | 0x08 | 0x0A => request.respond 0 [] []
  | 0x04 => request.respond (if (space request.key).isSome then 0 else 1) [] []
  | 0x0B => request.respond 0 [] (Utf8.encode "1.6.0-fake")
  | _ => request.respond 0x81 [] (Utf8.encode "Unknown command")

def isQuit (request : Request) : Bool :=
  request.opcode = 0x07

/-- Set, add and replace. -/
def isStore (request : Request) : Bool :=
  match request.opcode.toNat with
  | 0x01 | 0x02 | 0x03 => true
  | _ => false

theorem response_echoes (space : KeySpace) (request : Request) :
    ((request.response space).opcode, (request.response space).echo) =
      (request.opcode, request.echo) := by
  unfold response
  split
  · split <;> rfl
  all_goals rfl

theorem fits_respond (request : Request) {status : Nat} {value : List UInt8}
    (hstatus : status ≤ 65535) (hvalue : value.length < wordLimit) :
    (request.respond status [] value).Fits where
  extras_fits := Nat.zero_le _
  status_fits := hstatus
  body_fits := by
    change 0 + value.length < wordLimit
    rwa [Nat.zero_add]

theorem fits_respond_entry (request : Request) {entry : Entry}
    (h : entry.data.length ≤ longestValue) :
    (request.respond 0 (bigEndian 4 entry.flags.toNat) entry.data).Fits where
  extras_fits := by
    change (bigEndian 4 entry.flags.toNat).length ≤ 255
    rw [length_bigEndian]
    decide
  status_fits := Nat.zero_le _
  body_fits := by
    change (bigEndian 4 entry.flags.toNat).length + entry.data.length < 4294967296
    change entry.data.length ≤ 4294967291 at h
    rw [length_bigEndian]
    omega

/-- Responses fit their headers while the values that are kept do. -/
theorem fits_response {space : KeySpace} (h : space.Fits) (request : Request) :
    (request.response space).Fits := by
  unfold response
  split
  · split
    · next entry hentry => exact request.fits_respond_entry (h request.key entry hentry)
    · exact request.fits_respond (by decide) (by decide)
  case h_7 => exact request.fits_respond (by split <;> decide) (by decide)
  all_goals exact request.fits_respond (by decide) (by decide)

/-- Values stay short while short ones are stored. -/
theorem fits_apply {space : KeySpace} (h : space.Fits) {request : Request}
    (hstore : request.isStore = true → request.value.length ≤ longestValue) :
    (request.apply space).Fits := by
  have hput (hcode : request.isStore = true) :
      (space.put request.key ⟨request.flags, request.value⟩).Fits :=
    KeySpace.fits_put h (hstore hcode)
  unfold apply
  split
  · next hcode => exact hput (by simp only [isStore, hcode])
  · next hcode => exact hput (by simp only [isStore, hcode])
  · next hcode => exact hput (by simp only [isStore, hcode])
  · exact KeySpace.fits_remove h
  · exact KeySpace.fits_empty
  · exact h

theorem flagsOf_extras (request : Request) :
    BinaryWire.flagsOf request.extras = request.flags := by
  unfold BinaryWire.flagsOf flags
  split
  · next h =>
    match hextras : request.extras with
    | [] => simp [hextras] at h
    | [_] => simp [hextras] at h
    | [_, _] => simp [hextras] at h
    | [_, _, _] => simp [hextras] at h
    | first :: second :: third :: fourth :: rest =>
      simp [ofBigEndian]
  · next h =>
    split
    · next hextras => simp [hextras] at h
    · rfl

end Request

def Packet.protocol : Protocol Packet Response where
  bytes := Packet.bytes
  apply space packet := packet.request.apply space
  answer space packet := packet.request.response space
  send := Response.pack
  isQuit packet := packet.request.isQuit

namespace BinaryWire

/-! ### Turns -/

/-- A request that does not quit is answered as the key space calls for, which it takes where it
says. -/
theorem execute_request (entries : Entries) {request : Request} (hquit : request.isQuit = false)
    (rest : List UInt8) :
    ∃ entries', entries'.space = request.apply entries.space ∧
      execute false entries request rest =
        .next (request.response entries.space).pack entries' rest := by
  have hcode : request.opcode.toNat ≠ 0x07 := by
    intro hseven
    rw [Request.isQuit, decide_eq_false_iff_not] at hquit
    exact hquit (UInt8.toNat_inj.mp hseven)
  unfold execute Operation.ofCode Request.response Request.apply
  generalize request.opcode.toNat = code at *
  match code, hcode with
  | 0, _ =>
    refine ⟨entries, rfl, ?_⟩
    cases hentry : entries.get? request.key with
    | none => simp [Entries.space, hentry, answer, Request.respond, Status.keyNotFound]
    | some entry => simp [Entries.space, hentry, answer, Request.respond, Status.success]
  | 1, _ | 2, _ | 3, _ =>
    refine ⟨entries.insert request.key ⟨request.flags, request.value⟩, entries.space_insert .., ?_⟩
    rw [request.flagsOf_extras]
    rfl
  | 4, _ => exact ⟨entries.erase request.key, entries.space_erase _, rfl⟩
  | 8, _ => exact ⟨.empty, rfl, rfl⟩
  | 5, _ | 6, _ | 9, _ | 10, _ | 11, _ => exact ⟨entries, rfl, rfl⟩
  | code + 12, _ => exact ⟨entries, rfl, rfl⟩

/-- A frame that is read as a request is one turn, which leaves what follows it. -/
theorem turn_of_incoming (entries : Entries) {input rest : List UInt8} {request : Request}
    (h : incoming input = .request request rest) (hquit : request.isQuit = false) :
    ∃ entries', entries'.space = request.apply entries.space ∧
      turn false entries input = .next (request.response entries.space).pack entries' rest := by
  rw [turn, h]
  exact execute_request entries hquit rest

theorem turn_of_incoming_quit (entries : Entries) {input rest : List UInt8} {request : Request}
    (h : incoming input = .request request rest) (hquit : request.isQuit = true) :
    turn false entries input = .last .quit := by
  have hcode : request.opcode = 0x07 := of_decide_eq_true hquit
  rw [turn, h]
  simp only [execute, hcode]
  rfl

theorem speaks : Packet.protocol.Speaks (turn false) where
  next entries packet hquit rest := turn_of_incoming entries (packet.incoming_bytes rest) hquit
  quit entries packet hquit rest := turn_of_incoming_quit entries (packet.incoming_bytes rest) hquit
  closed _entries := rfl

/-! ### Connections -/

theorem map_answers (space : KeySpace) (packets : List Packet) :
    (Packet.protocol.answers space packets).map (fun response ↦ (response.opcode, response.echo)) =
      packets.map fun packet ↦ (packet.request.opcode, packet.request.echo) := by
  induction packets generalizing space with
  | nil => rfl
  | cons packet rest ih =>
    have hechoes : ((packet.request.response space).opcode,
        (packet.request.response space).echo) = (packet.request.opcode, packet.request.echo) :=
      packet.request.response_echoes space
    rw [Protocol.answers, List.map_cons, List.map_cons, ih]
    exact congrArg (· :: _) hechoes

/-- A conversation in frames, as the client finds it. -/
structure Answered (entries : Entries) (packets : List Packet) (served : Served) : Prop
    extends Packet.protocol.Conversation entries packets served where
  /-- A frame is read as the request that it was written for, and what follows it is left. -/
  incoming_eq : ∀ packet ∈ packets, ∀ rest,
    incoming (packet.bytes ++ rest) = .request packet.request rest
  /-- What was sent is read back as one response for each request before the first quit. -/
  all?_reply : Response.all? served.reply =
    some (Packet.protocol.answers entries.space (Packet.protocol.heard packets))
  /-- Each response has the opcode and the number of its request. -/
  echoes : (Packet.protocol.answers entries.space (Packet.protocol.heard packets)).map
      (fun response ↦ (response.opcode, response.echo)) =
    (Packet.protocol.heard packets).map fun packet ↦ (packet.request.opcode, packet.request.echo)

/-- Frames that are sent one behind the other are answered as the key space calls for, up to the
first that quits. Assumes: no value that is there at first or is stored is longer than a response
can hold. -/
theorem serve_packets (entries : Entries) (packets : List Packet) (hentries : entries.space.Fits)
    (hstore : ∀ packet ∈ Packet.protocol.heard packets, packet.request.isStore = true →
      packet.request.value.length ≤ longestValue) :
    Answered entries packets (serve false entries (packets.flatMap Packet.bytes)) := by
  have hconversation : Packet.protocol.Conversation entries packets
      (serve false entries (packets.flatMap Packet.bytes)) :=
    speaks.conversation (turn_shorter false) entries packets
  have hfits : ∀ response ∈
      Packet.protocol.answers entries.space (Packet.protocol.heard packets), response.Fits := by
    refine Protocol.forall_answers (fun packet hmem space hspace ↦ ?_)
      (fun packet _ space hspace ↦ ?_) hentries
    · exact Request.fits_apply hspace (hstore packet hmem)
    · exact Request.fits_response hspace packet.request
  refine
    { toConversation := hconversation
      incoming_eq := fun packet _ rest ↦ packet.incoming_bytes rest
      all?_reply := ?_
      echoes := map_answers entries.space _ }
  rw [hconversation.reply_eq]
  exact Response.all?_flatMap_pack _ hfits

/-- A set, a read, a delete of a key that was there before, a quit, and a set that comes too late. -/
def visit : List Packet :=
  [⟨⟨0x01, 7, [0, 0, 0, 5, 0, 0, 0, 0], "foo", [0x80, 0x0A]⟩, {}, by decide, by decide, by decide⟩,
    ⟨⟨0x00, 8, [], "foo", []⟩, { bucket := 3 }, by decide, by decide, by decide⟩,
    ⟨⟨0x04, 9, [], "bob", []⟩, { generation := 1 }, by decide, by decide, by decide⟩,
    ⟨⟨0x07, 10, [], "", []⟩, {}, by decide, by decide, by decide⟩,
    ⟨⟨0x02, 11, [], "bob", [0x31]⟩, {}, by decide, by decide, by decide⟩]

theorem serve_packets_visit :
    let entries := Entries.put .empty "bob" "1"
    let served := serve false entries (visit.flatMap Packet.bytes)
    Answered entries visit served ∧
      Response.all? served.reply =
        some [⟨0x01, 7, 0, [], []⟩, ⟨0x00, 8, 0, [0, 0, 0, 5], [0x80, 0x0A]⟩,
          ⟨0x04, 9, 0, [], []⟩] ∧
      served.ending = .quit := by
  have hentries : (Entries.put .empty "bob" "1").space.Fits := by
    rw [Entries.put, Entries.space_insert]
    exact KeySpace.fits_put KeySpace.fits_empty (by decide)
  have hanswers := serve_packets (Entries.put .empty "bob" "1") visit hentries (by decide)
  exact ⟨hanswers, hanswers.all?_reply.trans (by decide), hanswers.ending_eq⟩

end BinaryWire

end CacheCheck.Memcached
