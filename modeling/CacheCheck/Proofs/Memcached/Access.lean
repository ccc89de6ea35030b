import CacheCheck.Memcached.Endpoint
import CacheCheck.Proofs.Memcached.BinarySession
import CacheCheck.Proofs.Memcached.TextSession

/-!
What clients ask of an endpoint, whichever wire they speak. An access sets, reads or deletes one
key, or flushes; what it does to the key space and what it is answered with do not mention a wire. A
demand is an access with the choices that a wire leaves to the client, such as a number to tell
responses by.

Either wire writes a demand as one command, which takes the key space where the access says
(`Wire.turn_bytes`), and the first byte of a connection tells which wire it is
(`Wire.ofInput_input`). The two wires send different bytes in reply; a client that reads them back
finds the answer that the access calls for on both (`Wire.readAnswer_reply`).
-/

set_option autoImplicit false

namespace CacheCheck.Memcached

/-! ### Accesses -/

/-- A key that a header has room for. -/
structure Key extends Token where
  fits : (Utf8.encode text).length ≤ 65535

/-- What a client wants done. A set fits into a frame, with four bytes of flags and four of
expiry. -/
inductive Access
  | set (key : Key) (flags : UInt32) (data : List UInt8)
      (fits : 8 + (Utf8.encode key.text).length + data.length < wordLimit)
  | get (key : Key)
  | delete (key : Key)
  | flush

/-- What a client is told. -/
inductive Access.Answer
  | stored
  | hit (entry : Entry)
  | miss
  | deleted
  | notFound
  | flushed
  deriving DecidableEq, Repr

namespace Access

/-- What an access does to the key space. -/
def apply (space : KeySpace) : Access → KeySpace
  | set key flags data _ => space.put key.text ⟨flags, data⟩
  | get _ => space
  | delete key => space.remove key.text
  | flush => .empty

/-- What an access is answered with. -/
def answer (space : KeySpace) : Access → Answer
  | set .. => .stored
  | get key =>
    match space key.text with
    | some entry => .hit entry
    | none => .miss
  | delete key => if (space key.text).isSome then .deleted else .notFound
  | flush => .flushed

/-- Values stay short enough for responses. -/
theorem fits_apply {space : KeySpace} (h : space.Fits) (access : Access) :
    (access.apply space).Fits := by
  cases access with
  | set key flags data fits =>
    refine KeySpace.fits_put h ?_
    change 8 + (Utf8.encode key.text).length + data.length < 4294967296 at fits
    change data.length ≤ 4294967291
    omega
  | get key => exact h
  | delete key => exact KeySpace.fits_remove h
  | flush => exact KeySpace.fits_empty

end Access

/-! ### Demands -/

/-- An access as a client asks for it, with what either wire leaves open. -/
structure Demand where
  access : Access
  /-- When a set expires, which nobody looks at. -/
  expiry : Token := .number 0
  /-- A read in the long form. -/
  long : Bool := false
  /-- A set that is not to be answered. -/
  noreply : Bool := false
  echo : UInt32 := 0
  reserved : Reserved := {}
  /-- When a set expires, in four bytes. -/
  lifetime : UInt32 := 0

namespace Demand

/-- A demand on the text wire. -/
def order (demand : Demand) : TextWire.Order :=
  match demand.access with
  | .set key flags data fits =>
    .set key.toToken flags demand.expiry
      { data
        fits := by
          change 8 + (Utf8.encode key.text).length + data.length < 4294967296 at fits
          change data.length + 2 < 9223372036854775808
          omega }
      demand.noreply
  | .get key => .get demand.long [key.toToken]
  | .delete key => .delete key.toToken
  | .flush => .flush

/-- The extras of a set: the flags, and when it expires. -/
def setExtras (flags lifetime : UInt32) : List UInt8 :=
  bigEndian 4 flags.toNat ++ bigEndian 4 lifetime.toNat

/-- A frame that has a key and nothing else. -/
def keyed (opcode : UInt8) (demand : Demand) (key : Key) : Packet where
  request := ⟨opcode, demand.echo, [], key.text, []⟩
  reserved := demand.reserved
  extras_fits := Nat.zero_le _
  key_fits := key.fits
  body_fits := by
    have hkey := key.fits
    change 0 + (Utf8.encode key.text).length + 0 < 4294967296
    omega

/-- A demand on the binary wire. -/
def packet (demand : Demand) : Packet :=
  match demand.access with
  | .set key flags data fits =>
    { request := ⟨0x01, demand.echo, setExtras flags demand.lifetime, key.text, data⟩
      reserved := demand.reserved
      extras_fits := by
        change (setExtras flags demand.lifetime).length ≤ 255
        rw [setExtras, List.length_append, length_bigEndian, length_bigEndian]
        decide
      key_fits := key.fits
      body_fits := by
        change (setExtras flags demand.lifetime).length + _ + _ < _
        rw [setExtras, List.length_append, length_bigEndian, length_bigEndian]
        exact fits }
  | .get key => demand.keyed 0x00 key
  | .delete key => demand.keyed 0x04 key
  | .flush =>
    { request := ⟨0x08, demand.echo, [], "", []⟩
      reserved := demand.reserved
      extras_fits := Nat.zero_le _
      key_fits := Nat.zero_le _
      body_fits := Nat.zero_lt_succ _ }

theorem isQuit_order (demand : Demand) : demand.order.isQuit = false := by
  unfold order
  cases demand.access <;> rfl

theorem isQuit_packet (demand : Demand) : demand.packet.request.isQuit = false := by
  unfold packet
  cases demand.access <;> rfl

theorem order_apply (demand : Demand) (space : KeySpace) :
    demand.order.apply space = demand.access.apply space := by
  unfold order
  cases demand.access <;> rfl

/-- Flags are sent as they are read. -/
theorem flags_setExtras (opcode : UInt8) (echo flags lifetime : UInt32) (key : String)
    (data : List UInt8) :
    Request.flags ⟨opcode, echo, setExtras flags lifetime, key, data⟩ = flags := by
  have htake : (setExtras flags lifetime).take 4 = bigEndian 4 flags.toNat :=
    List.take_left' (length_bigEndian 4 _)
  rw [← Request.flagsOf_extras, BinaryWire.flagsOf, htake, ofNat_ofBigEndian_echo, if_pos]
  simp [setExtras]

theorem packet_apply (demand : Demand) (space : KeySpace) :
    demand.packet.request.apply space = demand.access.apply space := by
  unfold packet
  cases demand.access with
  | set key flags data fits =>
    change space.put key.text ⟨Request.flags _, data⟩ = space.put key.text ⟨flags, data⟩
    rw [flags_setExtras]
  | _ => rfl

end Demand

namespace Wire

/-- A demand as a wire writes it. -/
def bytes : Wire → Demand → List UInt8
  | .binary, demand => demand.packet.bytes
  | .ascii, demand => demand.order.bytes

/-- The reply to a demand. -/
def reply (wire : Wire) (space : KeySpace) (demand : Demand) : List UInt8 :=
  match wire with
  | .binary => (demand.packet.request.response space).pack
  | .ascii => demand.order.reply space

/-- Demands that are sent one behind the other. -/
def input (wire : Wire) (demands : List Demand) : List UInt8 :=
  demands.flatMap wire.bytes

/-- Either wire takes the key space where the access says, in one turn. -/
theorem turn_bytes (wire : Wire) (entries : Entries) (demand : Demand) (rest : List UInt8) :
    ∃ entries', entries'.space = demand.access.apply entries.space ∧
      wire.turn false entries (wire.bytes demand ++ rest) =
        .next (wire.reply entries.space demand) entries' rest := by
  cases wire with
  | binary =>
    rw [← demand.packet_apply]
    have hincoming := demand.packet.incoming_bytes rest
    have hturn := BinaryWire.turn_of_incoming entries hincoming demand.isQuit_packet
    exact hturn
  | ascii =>
    rw [← demand.order_apply]
    exact TextWire.Order.turn_bytes entries demand.isQuit_order rest

theorem turn_shorter (wire : Wire) (entries : Entries) (input reply : List UInt8)
    (entries' : Entries) (rest : List UInt8)
    (h : wire.turn false entries input = .next reply entries' rest) :
    rest.length < input.length := by
  cases wire with
  | binary => exact BinaryWire.turn_shorter false entries input reply entries' rest h
  | ascii => exact TextWire.turn_shorter false entries input reply entries' rest h

theorem serve_eq (wire : Wire) (entries : Entries) (input : List UInt8) :
    wire.serve false entries input = takeTurns (wire.turn false) wire.turn_shorter entries input :=
  match wire with
  | .binary => rfl
  | .ascii => rfl

/-- No text begins with the byte that frames begin with. -/
theorem head?_encode_ne (text : String) : (Utf8.encode text).head? ≠ some requestMark := by
  unfold Utf8.encode
  cases text.toList with
  | nil => simp
  | cons c rest =>
    obtain ⟨b, more, hbytes, hnext⟩ := Utf8.next_utf8EncodeChar c
    rw [List.flatMap_cons, hbytes]
    rintro hhead
    cases hhead
    have hnone : (some c, []) = ((none : Option Char), more) := (hnext []).symm.trans (by
      rw [List.append_nil]
      rfl)
    cases hnone

/-- A connection that is sent a demand is served on the wire that the demand was written for. -/
theorem ofInput_input (wire : Wire) {demands : List Demand} (h : demands ≠ []) :
    ofInput (wire.input demands) = wire := by
  obtain ⟨demand, others, rfl⟩ := List.exists_cons_of_ne_nil h
  cases wire with
  | binary => rfl
  | ascii =>
    obtain ⟨first, line, hline⟩ :=
      List.exists_cons_of_ne_nil (TextWire.encode_line_ne_nil
        (" ".intercalate (demand.order.tokens.map Token.text)) [])
    rw [List.append_nil] at hline
    have hne := head?_encode_ne (" ".intercalate (demand.order.tokens.map Token.text) ++ "\r\n")
    rw [hline] at hne
    rw [ofInput, input, List.flatMap_cons, bytes, TextWire.Order.bytes, hline]
    exact if_neg hne

end Wire

/-! ### Answers on the text wire -/

namespace TextWire

/-- Takes the words of a line off a stream. -/
def readLine (stream : List UInt8) : Option (List String × List UInt8) :=
  (Utf8.decode? (splitLine stream).1).map fun text ↦ (words text, (splitLine stream).2)

/-- Takes a block off a stream, with the two bytes behind it, by the numbers that announce it. -/
def readBlock (flags length : String) (stream : List UInt8) : Option (Entry × List UInt8) :=
  match Decimal.unsigned Decimal.max32 flags.toList,
    Decimal.unsigned Decimal.max64 length.toList with
  | .ok flags, .ok length =>
    if stream.length < length + 2 then none
    else some (⟨UInt32.ofNat flags, stream.take length⟩, stream.drop (length + 2))
  | _, _ => none

/-- Takes what a read of one key is answered with off a stream: a line that ends it, and before that
the value, when there is one. -/
def readFound (key : String) (stream : List UInt8) : Option (Access.Answer × List UInt8) :=
  match readLine stream with
  | some (["END"], rest) => some (.miss, rest)
  | some ("VALUE" :: found :: flags :: length :: _, rest) =>
    if found = key then do
      let (entry, rest) ← readBlock flags length rest
      let (["END"], rest) ← readLine rest | none
      some (.hit entry, rest)
    else none
  | _ => none

/-- Takes the answer to a demand off a stream. A set that is not to be answered is taken as done. -/
def readAnswer (demand : Demand) (stream : List UInt8) : Option (Access.Answer × List UInt8) :=
  match demand.access with
  | .get key => readFound key.text stream
  | .set .. =>
    if demand.noreply then some (.stored, stream)
    else
      match readLine stream with
      | some (["STORED"], rest) => some (.stored, rest)
      | _ => none
  | .delete _ =>
    match readLine stream with
    | some (["DELETED"], rest) => some (.deleted, rest)
    | some (["NOT_FOUND"], rest) => some (.notFound, rest)
    | _ => none
  | .flush =>
    match readLine stream with
    | some (["OK"], rest) => some (.flushed, rest)
    | _ => none

/-- A line is read back as the tokens that it was made of. -/
theorem readLine_tokens (line : List Token) (rest : List UInt8) :
    readLine (Utf8.encode (" ".intercalate (line.map Token.text) ++ "\r\n") ++ rest) =
      some (line.map Token.text, rest) := by
  rw [readLine, splitLine_encode (newline_not_mem_intercalate line) rest, Utf8.decode?_encode,
    Option.map_some, words_intercalate line (by decide) (by simp [isBlank])]

/-- So is a line of one word. -/
theorem readLine_word (word ended : String) (hended : ended = word ++ "\r\n")
    (hsome : word ≠ "") (hword : word.toList.any isBlank = false) (rest : List UInt8) :
    readLine (Utf8.encode ended ++ rest) = some ([word], rest) := by
  rw [hended]
  exact readLine_tokens [.word word hsome hword] rest

/-- The line that announces a value is read back as its parts. -/
theorem readLine_value (key : Token) (flags length : Nat) (long : Bool) (rest : List UInt8) :
    ∃ more, readLine (Utf8.encode ("VALUE " ++ key.text ++ " " ++ toString flags ++ " " ++
        toString length ++ (if long then " 0" else "") ++ "\r\n") ++ rest) =
      some ("VALUE" :: key.text :: toString flags :: toString length :: more, rest) := by
  have hname : "VALUE" ++ " " = "VALUE " := rfl
  have hzero : " " ++ "0" = " 0" := rfl
  have hline := readLine_tokens ([.word "VALUE" (by decide) rfl, key, .number flags,
    .number length] ++ if long then [.word "0" (by decide) rfl] else []) rest
  cases long <;>
    simp only [Bool.false_eq_true, if_false, if_true, List.cons_append, List.nil_append,
      List.map_cons, List.map_nil, Token.word, Token.number, String.intercalate_cons_cons,
      String.intercalate_singleton, String.append_assoc, String.append_empty, ← hname,
      ← hzero] at hline ⊢
  · exact ⟨[], hline⟩
  · exact ⟨["0"], hline⟩

theorem readBlock_entry {entry : Entry} (hfits : entry.data.length ≤ longestValue)
    (rest : List UInt8) :
    readBlock (toString entry.flags.toNat) (toString entry.data.length)
        (entry.data ++ Utf8.encode "\r\n" ++ rest) =
      some (entry, rest) := by
  have hmemory : entry.data.length + 2 < memoryLimit := by
    change entry.data.length ≤ 4294967291 at hfits
    change entry.data.length + 2 < 9223372036854775808
    omega
  have hblock : (entry.data ++ Utf8.encode "\r\n").length = entry.data.length + 2 :=
    List.length_append
  have hlong : ¬ (entry.data ++ Utf8.encode "\r\n" ++ rest).length < entry.data.length + 2 := by
    rw [List.length_append]
    omega
  rw [readBlock, unsigned_flags, unsigned_length hmemory]
  simp only [if_neg hlong]
  rw [List.drop_left' hblock, List.append_assoc, List.take_left, UInt32.ofNat_toNat]

/-- A read of one key is answered by what is under it. -/
theorem readFound_reply (long : Bool) (key : Key) {space : KeySpace} (h : space.Fits)
    (rest : List UInt8) :
    readFound key.text (Order.found long space key.text ++ Utf8.encode "END\r\n" ++ rest) =
      some ((Access.get key).answer space, rest) := by
  have hend := readLine_word "END" "END\r\n" rfl (by decide) rfl rest
  rw [Order.found, Access.answer]
  cases hentry : space key.text with
  | none =>
    simp only [List.nil_append, readFound, hend]
  | some entry =>
    obtain ⟨more, hvalue⟩ := readLine_value key.toToken entry.flags.toNat entry.data.length long
      (entry.data ++ Utf8.encode "\r\n" ++ (Utf8.encode "END\r\n" ++ rest))
    have hblock := readBlock_entry (h key.text entry hentry) (Utf8.encode "END\r\n" ++ rest)
    simp only [List.append_assoc] at hvalue hblock ⊢
    rw [readFound, hvalue]
    simp only [if_true, hblock, hend, Option.bind_eq_bind, Option.bind_some]

theorem readAnswer_reply (demand : Demand) {space : KeySpace} (h : space.Fits) (rest : List UInt8) :
    readAnswer demand (demand.order.reply space ++ rest) =
      some (demand.access.answer space, rest) := by
  unfold readAnswer Demand.order
  cases demand.access with
  | get key =>
    have hread := readFound_reply demand.long key h rest
    simpa only [Order.reply, List.flatMap_singleton] using hread
  | set key flags data fits =>
    have hstored := readLine_word "STORED" "STORED\r\n" rfl (by decide) rfl rest
    cases hnoreply : demand.noreply with
    | true => rfl
    | false => simp [Order.reply, hstored, Access.answer]
  | delete key =>
    have hdeleted := readLine_word "DELETED" "DELETED\r\n" rfl (by decide) rfl rest
    have hmissing := readLine_word "NOT_FOUND" "NOT_FOUND\r\n" rfl (by decide) rfl rest
    cases hfound : (space key.text).isSome with
    | true => simp [Order.reply, hfound, hdeleted, Access.answer]
    | false => simp [Order.reply, hfound, hmissing, Access.answer]
  | flush =>
    have hflushed := readLine_word "OK" "OK\r\n" rfl (by decide) rfl rest
    simp [Order.reply, hflushed, Access.answer]

end TextWire

/-! ### Answers on the binary wire -/

namespace BinaryWire

/-- What a response says, by its status. -/
def answerOf (access : Access) (response : Response) : Option Access.Answer :=
  match access, response.status with
  | .set .., 0 => some .stored
  | .get _, 0 => some (.hit ⟨UInt32.ofNat (ofBigEndian response.extras), response.value⟩)
  | .get _, 1 => some .miss
  | .delete _, 0 => some .deleted
  | .delete _, 1 => some .notFound
  | .flush, 0 => some .flushed
  | _, _ => none

/-- Takes the answer to a demand off a stream: a response that repeats its opcode and number. -/
def readAnswer (demand : Demand) (stream : List UInt8) : Option (Access.Answer × List UInt8) := do
  let (response, rest) ← Response.next? stream
  let request := demand.packet.request
  if response.opcode = request.opcode ∧ response.echo = request.echo then
    (answerOf demand.access response).map fun answer ↦ (answer, rest)
  else none

theorem answerOf_response (demand : Demand) (space : KeySpace) :
    answerOf demand.access (demand.packet.request.response space) =
      some (demand.access.answer space) := by
  unfold Demand.packet
  cases demand.access with
  | get key =>
    change answerOf (.get key) (match space key.text with
      | some entry => Request.respond _ 0 (bigEndian 4 entry.flags.toNat) entry.data
      | none => Request.respond _ 1 [] (Utf8.encode "Not found")) = _
    rw [Access.answer]
    cases space key.text with
    | none => rfl
    | some entry => simp only [answerOf, Request.respond, ofNat_ofBigEndian_echo]
  | delete key =>
    change answerOf (.delete key)
      (Request.respond _ (if (space key.text).isSome then 0 else 1) [] []) = _
    rw [Access.answer]
    cases (space key.text).isSome <;> rfl
  | _ => rfl

theorem readAnswer_reply (demand : Demand) {space : KeySpace} (h : space.Fits) (rest : List UInt8) :
    readAnswer demand ((demand.packet.request.response space).pack ++ rest) =
      some (demand.access.answer space, rest) := by
  have hnext := Response.next?_pack (Request.fits_response h demand.packet.request) rest
  obtain ⟨hopcode, hecho⟩ :=
    Prod.mk.inj (demand.packet.request.response_echoes space)
  rw [readAnswer, hnext]
  simp only [Option.bind_eq_bind, Option.bind_some, hopcode, hecho, and_self, if_true,
    answerOf_response, Option.map_some]

end BinaryWire

namespace Wire

/-- Takes the answer to a demand off what a connection was sent. -/
def readAnswer (wire : Wire) (demand : Demand) (stream : List UInt8) :
    Option (Access.Answer × List UInt8) :=
  match wire with
  | .binary => BinaryWire.readAnswer demand stream
  | .ascii => TextWire.readAnswer demand stream

/-- Reads the answers to demands, with nothing left behind them. -/
def readAnswers (wire : Wire) : List Demand → List UInt8 → Option (List Access.Answer)
  | [], stream => if stream = [] then some [] else none
  | demand :: demands, stream => do
    let (answer, rest) ← wire.readAnswer demand stream
    let answers ← wire.readAnswers demands rest
    some (answer :: answers)

/-- What is sent in reply to a demand says what the access calls for, on either wire. -/
theorem readAnswer_reply (wire : Wire) (demand : Demand) {space : KeySpace} (h : space.Fits)
    (rest : List UInt8) :
    wire.readAnswer demand (wire.reply space demand ++ rest) =
      some (demand.access.answer space, rest) :=
  match wire with
  | .binary => BinaryWire.readAnswer_reply demand h rest
  | .ascii => TextWire.readAnswer_reply demand h rest

end Wire

end CacheCheck.Memcached
