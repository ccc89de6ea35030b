import CacheCheck.Proofs.Memcached.BinarySession
import CacheCheck.Proofs.Memcached.Stalled

/-!
Lengths, where they are read and where they are written. A set line announces a length of up to 64
bits, and two bytes more are read; a frame has two lengths inside a third one; a response writes its
lengths into one byte and into four.

What is read is exact, but for one sum: the two longest lengths that a set line can announce have no
sum with two in 64 bits, and break the connection (`fate_of_setLine`). So every value that a text
connection leaves was there before or has the length that a line of the connection announced
(`stored_of_serve`), and a frame is its header, its three parts and nothing else
(`parts_of_incoming`).

What is written is the length modulo what fits into the field (`ofBytes_pack_lengths`). No response
has more than four bytes of extras. A body of more than four bytes of length can only be that of a
value that was found (`response_lengths`), and there are ways to store one: a text line
announces any length, and a frame has room for values that leave no room for flags beside them
(`lengths_wrap`).
-/

set_option autoImplicit false

namespace CacheCheck.Memcached

/-! ### Numbers in a field -/

/-- A field holds a number modulo what fits into it. -/
theorem ofBigEndian_bigEndian_mod (width n : Nat) :
    ofBigEndian (bigEndian width n) = n % Nat.pow 256 width := by
  induction width generalizing n with
  | zero =>
    rw [bigEndian]
    exact (Nat.mod_one n).symm
  | succ width ih =>
    have hbyte : (UInt8.ofNat (n % 256)).toNat = n % 256 := by
      rw [UInt8.toNat_ofNat']
      exact Nat.mod_eq_of_lt (Nat.mod_lt _ (by omega))
    have hpow : Nat.pow 256 (width + 1) = 256 * Nat.pow 256 width := Nat.mul_comm _ _
    rw [bigEndian, ofBigEndian_append_singleton, ih, hbyte, hpow, Nat.mod_mul]
    omega

/-- A header of a response has the lengths of its parts, modulo what fits into one byte and into
four. -/
theorem Response.ofBytes_pack_lengths (response : Response) :
    (Header.ofBytes response.pack).extrasLength = response.extras.length % 256 ∧
      (Header.ofBytes response.pack).bodyLength =
        (response.extras.length + response.value.length) % wordLimit := by
  have hextras := ofBigEndian_bigEndian_mod 1 response.extras.length
  have hbody := ofBigEndian_bigEndian_mod 4 (response.extras.length + response.value.length)
  constructor
  · simp [Header.ofBytes, Response.pack, List.drop_append, drop_bigEndian, hextras]
  · simp only [wordLimit]
    simp [Header.ofBytes, Response.pack, List.drop_append, drop_bigEndian, hbody]

theorem Response.length_pack (response : Response) :
    response.pack.length = headerLength + (response.extras.length + response.value.length) := by
  rw [response.pack_eq, List.length_append, response.length_packedHeader, List.length_append]

/-! ### Blocks -/

namespace TextWire

/-- A line that announces a value of so many bytes, and what is behind it. -/
def SetLine (input : List UInt8) (key : String) (flags : UInt32) (length : Nat)
    (behind : List UInt8) : Prop :=
  ∃ text flagsWord expiry lengthWord options,
    FirstLine input (Utf8.encode text) behind ∧
      Spaced text.toList ("set" :: key :: flagsWord :: expiry :: lengthWord :: options) ∧
      Decimal.Numeral flagsWord.toList flags.toNat ∧
      Decimal.Numeral lengthWord.toList length ∧ length ≤ Decimal.max64

/-- What becomes of a block of an announced length. -/
inductive Fate (turn : Turn) (entries : Entries) (key : String) (flags : UInt32) (length : Nat)
    (behind : List UInt8) : Prop
  /-- The number of bytes to read is no number of 64 bits. -/
  | overflow (hlong : Decimal.max64 < length + 2) (hturn : turn = .last (.broken .overflow))
  /-- No memory holds so many bytes. -/
  | tooLong (hnumber : length + 2 ≤ Decimal.max64) (hlong : memoryLimit ≤ length + 2)
      (hturn : turn = .last (.broken .tooLong))
  | cutShort (hnumber : length + 2 ≤ Decimal.max64) (hshort : behind.length < length + 2)
      (hturn : turn = .last (.broken .cutShort))
  /-- The bytes that are read are the value and two more. -/
  | stored (hnumber : length + 2 ≤ Decimal.max64) (data : List UInt8) (first second : UInt8)
      (reply rest : List UInt8) (hbehind : behind = data ++ [first, second] ++ rest)
      (hlength : data.length = length)
      (hturn : turn = .next reply (entries.insert key ⟨flags, data⟩) rest)

theorem fate_of_setLine (stalled : Bool) (entries : Entries) {input behind : List UInt8}
    {key : String} {flags : UInt32} {length : Nat} (h : SetLine input key flags length behind) :
    Fate (turn stalled entries input) entries key flags length behind := by
  obtain ⟨text, flagsWord, expiry, lengthWord, options, hline, hwords, hflags, hlength, hrange⟩ := h
  rw [turn_of_text entries hline hwords, ofWords_set hflags hlength hrange]
  by_cases hnumber : Decimal.max64 < length + 2
  · refine .overflow hnumber ?_
    rw [execute, if_pos hnumber]
  by_cases hlong : memoryLimit ≤ length + 2
  · refine .tooLong (Nat.not_lt.mp hnumber) hlong ?_
    rw [execute, if_neg hnumber, if_pos hlong]
  by_cases hshort : behind.length < length + 2
  · refine .cutShort (Nat.not_lt.mp hnumber) hshort ?_
    rw [execute, if_neg hnumber, if_neg hlong, if_pos hshort]
  · obtain ⟨data, first, second, rest, rfl, rfl⟩ := exists_block (Nat.not_lt.mp hshort)
    exact .stored (Nat.not_lt.mp hnumber) data first second _ rest rfl rfl
      (execute_set stalled entries key flags _ (Nat.not_le.mp hlong) first second rest)

theorem exists_words_of_set {found : List String} {key : String} {flags : UInt32} {length : Nat}
    {noreply : Bool} (h : Command.ofWords found = .set key flags length noreply) :
    ∃ flagsWord expiry lengthWord options,
      found = "set" :: key :: flagsWord :: expiry :: lengthWord :: options ∧
        Decimal.Numeral flagsWord.toList flags.toNat ∧
        Decimal.Numeral lengthWord.toList length ∧ length ≤ Decimal.max64 := by
  unfold Command.ofWords at h
  split at h
  case h_2 =>
    split at h
    · next flagsRead lengthRead hflags hlength =>
      cases h
      obtain ⟨hflags, hmax⟩ := Decimal.unsigned_eq_ok_iff.mp hflags
      obtain ⟨hlength, hrange⟩ := Decimal.unsigned_eq_ok_iff.mp hlength
      have hnat : (UInt32.ofNat flagsRead).toNat = flagsRead :=
        UInt32.toNat_ofNat_of_lt' (Nat.lt_succ_of_le hmax)
      exact ⟨_, _, _, _, rfl, by rwa [hnat], hlength, hrange⟩
    · cases h
  all_goals cases h

/-- A value that a turn leaves was there before, or has the length that the line announced. -/
theorem stored_of_turn {stalled : Bool} {entries entries' : Entries} {input reply rest : List UInt8}
    (h : turn stalled entries input = .next reply entries' rest) {key : String} {entry : Entry}
    (hentry : entries'.get? key = some entry) :
    entries.get? key = some entry ∨
      ∃ behind, SetLine input key entry.flags entry.data.length behind ∧ entry.data <+: behind := by
  have hsome : input ≠ [] := by
    rintro rfl
    cases h
  obtain ⟨line, behind, hline⟩ := exists_firstLine hsome
  have htext : ∃ text, line = Utf8.encode text := by
    refine Classical.byContradiction fun hnone ↦ ?_
    rw [turn_of_notText entries hline (not_exists.mp hnone)] at h
    cases h
  obtain ⟨text, rfl⟩ := htext
  obtain ⟨found, hwords⟩ := exists_spaced text.toList
  have hturn : turn stalled entries input = execute stalled entries (.ofWords found) behind :=
    turn_of_text entries hline hwords
  cases hcommand : Command.ofWords found with
  | set other flags length noreply =>
    obtain ⟨flagsWord, expiry, lengthWord, options, rfl, hflags, hlength, hrange⟩ :=
      exists_words_of_set hcommand
    have hset : SetLine input other flags length behind :=
      ⟨text, flagsWord, expiry, lengthWord, options, hline, hwords, hflags, hlength, hrange⟩
    have hfate := fate_of_setLine stalled entries hset
    rw [h] at hfate
    cases hfate with
    | stored hnumber data first second reply rest hbehind hlength hturn =>
      cases hturn
      rw [Store.get?_insert] at hentry
      split at hentry
      · next hkey =>
        cases hentry
        subst hkey
        refine .inr ⟨behind, by rwa [hlength], ?_⟩
        rw [hbehind, List.append_assoc]
        exact List.prefix_append _ _
      · exact .inl hentry
    | overflow _ hturn => cases hturn
    | tooLong _ _ hturn => cases hturn
    | cutShort _ _ hturn => cases hturn
  | delete other =>
    rw [h, hcommand] at hturn
    cases hturn
    rw [Store.get?_erase] at hentry
    split at hentry
    · cases hentry
    · exact .inl hentry
  | flush =>
    rw [h, hcommand] at hturn
    cases hturn
    cases hentry
  | get long keys =>
    rw [h, hcommand, execute] at hturn
    split at hturn <;> cases hturn
    exact .inl hentry
  | quit =>
    rw [h, hcommand] at hturn
    cases hturn
  | _ =>
    rw [h, hcommand] at hturn
    cases hturn
    exact .inl hentry

/-- A value that a connection leaves was there before, or has the length that one of its lines
announced. -/
theorem stored_of_serve (stalled : Bool) (entries : Entries) (input : List UInt8) {key : String}
    {entry : Entry} (hentry : (serve stalled entries input).entries.get? key = some entry) :
    entries.get? key = some entry ∨
      ∃ later left behind, Comes (turn stalled) entries input later left ∧
        SetLine left key entry.flags entry.data.length behind ∧ entry.data <+: behind := by
  cases hturn : turn stalled entries input with
  | last ending =>
    rw [serve, takeTurns_last hturn] at hentry
    exact .inl hentry
  | next reply entries' rest =>
    have hshorter := turn_shorter stalled entries input reply entries' rest hturn
    rw [serve, takeTurns_next hturn] at hentry
    rcases stored_of_serve stalled entries' rest hentry with
      hbefore | ⟨later, left, behind, hcomes, hset, hdata⟩
    · rcases stored_of_turn hturn hbefore with hbefore | ⟨behind, hset, hdata⟩
      · exact .inl hbefore
      · exact .inr ⟨entries, input, behind, .refl _ _, hset, hdata⟩
    · exact .inr ⟨later, left, behind, .head hturn hcomes, hset, hdata⟩
  termination_by input.length

end TextWire

/-! ### Frames -/

namespace BinaryWire

/-- A frame is cut into a header and three parts, as long as the header says. -/
structure Parts (input : List UInt8) (request : Request) (rest head key : List UInt8) : Prop where
  input_eq : input = head ++ (request.extras ++ key ++ request.value) ++ rest
  head_length : head.length = headerLength
  parts_le : (Header.ofBytes input).extrasLength + (Header.ofBytes input).keyLength ≤
    (Header.ofBytes input).bodyLength
  extras_length : request.extras.length = (Header.ofBytes input).extrasLength
  key_length : key.length = (Header.ofBytes input).keyLength
  body_length : (request.extras ++ key ++ request.value).length = (Header.ofBytes input).bodyLength
  key_eq : request.key = Utf8.decodeLossy key

theorem parts_of_incoming {input rest : List UInt8} {request : Request}
    (h : incoming input = .request request rest) :
    ∃ head key, Parts input request rest head key := by
  obtain ⟨frame, hframe, rfl, rfl⟩ := exists_frame_of_incoming h
  have hheader : Header.ofBytes (frame ++ rest) = Header.ofBytes frame :=
    Header.ofBytes_append hframe.header_whole rest
  have hbody : (frame.drop headerLength).length = (Header.ofBytes frame).bodyLength := by
    rw [List.length_drop, hframe.length_eq, Nat.add_sub_cancel_left]
  have hparts := hframe.parts_le
  have hconcat (body : List UInt8) (extras key : Nat) :
      body.take extras ++ (body.drop extras).take key ++ body.drop (extras + key) = body := by
    rw [← List.drop_drop, List.append_assoc, List.take_append_drop, List.take_append_drop]
  refine ⟨frame.take headerLength,
    ((frame.drop headerLength).drop (Header.ofBytes frame).extrasLength).take
      (Header.ofBytes frame).keyLength, ?_⟩
  exact
    { input_eq := by
        simp only [requestOf]
        rw [hconcat, List.take_append_drop]
      head_length := List.length_take_of_le hframe.header_whole
      parts_le := by
        rw [hheader]
        omega
      extras_length := by
        rw [hheader]
        exact List.length_take_of_le (by omega)
      key_length := by
        rw [hheader]
        exact List.length_take_of_le (by rw [List.length_drop]; omega)
      body_length := by
        simp only [requestOf]
        rw [hheader, hconcat, hbody]
      key_eq := rfl }

end BinaryWire

/-! ### Responses -/

/-- A header says how many bytes follow it, and how many of them are extras. -/
def Response.IsExact (response : Response) : Prop :=
  (Header.ofBytes response.pack).extrasLength = response.extras.length ∧
    response.pack.length = headerLength + (Header.ofBytes response.pack).bodyLength

theorem Response.isExact_iff {response : Response} (hextras : response.extras.length ≤ 4) :
    response.IsExact ↔ response.extras.length + response.value.length < wordLimit := by
  obtain ⟨hextrasLength, hbodyLength⟩ := response.ofBytes_pack_lengths
  have hmod := Nat.mod_lt (response.extras.length + response.value.length)
    (show 0 < wordLimit by decide)
  rw [IsExact, hextrasLength, hbodyLength, response.length_pack]
  constructor
  · rintro ⟨-, hbody⟩
    omega
  · intro hlt
    exact ⟨Nat.mod_eq_of_lt (by omega), by rw [Nat.mod_eq_of_lt hlt]⟩

/-- A read finds a value that leaves no room for its flags. -/
def Request.FindsLong (request : Request) (space : KeySpace) : Prop :=
  request.opcode = 0x00 ∧
    ∃ entry, space request.key = some entry ∧ wordLimit ≤ 4 + entry.data.length

theorem Request.response_of_found {request : Request} {space : KeySpace} {entry : Entry}
    (hread : request.opcode = 0x00) (hentry : space request.key = some entry) :
    request.response space =
      request.respond 0 (bigEndian 4 entry.flags.toNat) entry.data := by
  simp only [response, hread, hentry]
  rfl

/-- A response to anything but a read that finds a value is short. -/
theorem Request.response_of_not_found {request : Request} {space : KeySpace}
    (h : ∀ entry, request.opcode = 0x00 → space request.key ≠ some entry) :
    ∃ status value, request.response space = request.respond status [] value ∧
      value.length < wordLimit := by
  unfold response
  split
  · next hcode =>
    have hread : request.opcode = 0x00 := UInt8.toNat_inj.mp hcode
    split
    · next entry hentry => exact absurd hentry (h entry hread)
    · exact ⟨_, _, rfl, by decide⟩
  all_goals exact ⟨_, _, rfl, by decide⟩

/-- A response has few extras, and a long body only where a long value was found. -/
theorem Request.response_lengths (space : KeySpace) (request : Request) :
    (request.response space).extras.length ≤ 4 ∧
      (wordLimit ≤ (request.response space).extras.length +
        (request.response space).value.length ↔ request.FindsLong space) := by
  by_cases hfound : ∃ entry, request.opcode = 0x00 ∧ space request.key = some entry
  · obtain ⟨entry, hread, hentry⟩ := hfound
    have hflags : (bigEndian 4 entry.flags.toNat).length = 4 := length_bigEndian ..
    rw [response_of_found hread hentry]
    simp only [respond, hflags, FindsLong, hread, hentry, Option.some.injEq, true_and]
    refine ⟨Nat.le_refl 4, fun hlong ↦ ⟨entry, rfl, hlong⟩, ?_⟩
    rintro ⟨_, rfl, hlong⟩
    exact hlong
  · have hother : ∀ entry, request.opcode = 0x00 → space request.key ≠ some entry :=
      fun entry hread hentry ↦ hfound ⟨entry, hread, hentry⟩
    obtain ⟨status, value, hresponse, hshort⟩ := response_of_not_found hother
    rw [hresponse]
    refine ⟨Nat.zero_le _, iff_of_false (Nat.not_le.mpr ?_) ?_⟩
    · change 0 + value.length < wordLimit
      rwa [Nat.zero_add]
    · rintro ⟨hread, entry, hentry, -⟩
      exact hother entry hread hentry

namespace BinaryWire

/-- What a connection sends at one of its turns. -/
def Sends (stalled : Bool) (entries : Entries) (input : List UInt8) (response : Response) : Prop :=
  ∃ later left request rest, Comes (turn stalled) entries input later left ∧
    incoming left = .request request rest ∧ response = request.response later.space

theorem exists_response_of_turn {stalled : Bool} {entries entries' : Entries}
    {input reply rest : List UInt8} (h : turn stalled entries input = .next reply entries' rest) :
    ∃ request, incoming input = .request request rest ∧
      reply = (request.response entries.space).pack := by
  have hturn : turn false entries input = .next reply entries' rest := by
    cases stalled with
    | false => exact h
    | true =>
      have hread : ¬ BeginsRead input := fun hread ↦ by
        rw [turn_stalled_of_beginsRead entries hread] at h
        cases h
      rwa [turn_stalled_of_not entries hread] at h
  cases hincoming : incoming input with
  | nothing =>
    rw [turn, hincoming] at hturn
    cases hturn
  | broken cause =>
    rw [turn, hincoming] at hturn
    cases hturn
  | request request behind =>
    cases hquit : request.isQuit with
    | true =>
      rw [turn_of_incoming_quit entries hincoming hquit] at hturn
      cases hturn
    | false =>
      obtain ⟨_, -, hanswer⟩ := turn_of_incoming entries hincoming hquit
      rw [hanswer] at hturn
      cases hturn
      exact ⟨request, rfl, rfl⟩

/-- All that a connection sends is responses, each sent at one of its turns. -/
theorem exists_responses (stalled : Bool) (entries : Entries) (input : List UInt8) :
    ∃ responses : List Response,
      (serve stalled entries input).reply = responses.flatMap Response.pack ∧
        ∀ response ∈ responses, Sends stalled entries input response := by
  cases hturn : turn stalled entries input with
  | last ending =>
    refine ⟨[], ?_, by simp⟩
    rw [serve, takeTurns_last hturn]
    rfl
  | next reply entries' rest =>
    have hshorter := turn_shorter stalled entries input reply entries' rest hturn
    obtain ⟨request, hincoming, rfl⟩ := exists_response_of_turn hturn
    obtain ⟨responses, hreply, hsends⟩ := exists_responses stalled entries' rest
    refine ⟨request.response entries.space :: responses, ?_, List.forall_mem_cons.mpr ⟨?_, ?_⟩⟩
    · rw [serve, takeTurns_next hturn, List.flatMap_cons, ← hreply]
      rfl
    · exact ⟨entries, input, request, rest, .refl _ _, hincoming, rfl⟩
    · intro response hmem
      obtain ⟨later, left, other, behind, hcomes, hother⟩ := hsends response hmem
      exact ⟨later, left, other, behind, .head hturn hcomes, hother⟩
  termination_by input.length

end BinaryWire

/-! ### Whole connections -/

/-- How the lengths on a connection are kept. The connection is served on either wire. -/
structure Measured (stalled : Bool) (entries : Entries) (input : List UInt8) : Prop where
  /-- The block behind a set line is as long as the line announced, with two more bytes. -/
  block {later : Entries} {left behind : List UInt8} {key : String} {flags : UInt32} {length : Nat}
    (hcomes : Comes (TextWire.turn stalled) entries input later left)
    (hset : TextWire.SetLine left key flags length behind) :
    TextWire.Fate (TextWire.turn stalled later left) later key flags length behind
  /-- A value that was not there before is as long as some line announced. -/
  stored {key : String} {entry : Entry}
    (hentry : (TextWire.serve stalled entries input).entries.get? key = some entry) :
    entries.get? key = some entry ∨
      ∃ later left behind, Comes (TextWire.turn stalled) entries input later left ∧
        TextWire.SetLine left key entry.flags entry.data.length behind ∧ entry.data <+: behind
  /-- A frame that is accepted is a header and three parts of the lengths that it has. -/
  frame {later : Entries} {left rest : List UInt8} {request : Request}
    (hcomes : Comes (BinaryWire.turn stalled) entries input later left)
    (hincoming : BinaryWire.incoming left = .request request rest) :
    ∃ head key, BinaryWire.Parts left request rest head key
  /-- What is sent is responses. Each has its lengths in its header, but for those of a long value,
  of whose length the header has what is left modulo the field. -/
  sent : ∃ responses : List Response,
    (BinaryWire.serve stalled entries input).reply = responses.flatMap Response.pack ∧
      ∀ response ∈ responses,
        (Header.ofBytes response.pack).extrasLength = response.extras.length ∧
          (Header.ofBytes response.pack).bodyLength =
            (response.pack.length - headerLength) % wordLimit ∧
          ∃ later left request rest, Comes (BinaryWire.turn stalled) entries input later left ∧
            BinaryWire.incoming left = .request request rest ∧
            response = request.response later.space ∧
            (response.IsExact ↔ ¬ request.FindsLong later.space)

/-- Lengths are kept so on every connection, whatever bytes are sent and whatever is stored. -/
theorem serve_measured (stalled : Bool) (entries : Entries) (input : List UInt8) :
    Measured stalled entries input := by
  refine
    { block := fun _ hset ↦ TextWire.fate_of_setLine stalled _ hset
      stored := TextWire.stored_of_serve stalled entries input
      frame := fun _ hincoming ↦ BinaryWire.parts_of_incoming hincoming
      sent := ?_ }
  obtain ⟨responses, hreply, hsends⟩ := BinaryWire.exists_responses stalled entries input
  refine ⟨responses, hreply, fun response hmem ↦ ?_⟩
  obtain ⟨later, left, request, rest, hcomes, hincoming, rfl⟩ := hsends response hmem
  obtain ⟨hextras, hlong⟩ := request.response_lengths later.space
  obtain ⟨hextrasLength, hbodyLength⟩ := (request.response later.space).ofBytes_pack_lengths
  refine ⟨?_, ?_, later, left, request, rest, hcomes, hincoming, rfl, ?_⟩
  · rw [hextrasLength, Nat.mod_eq_of_lt (by omega)]
  · rw [hbodyLength, Response.length_pack, Nat.add_sub_cancel_left]
  · rw [Response.isExact_iff hextras, ← hlong, Nat.not_le]

/-- Entries that an endpoint can have: those that texts put in from outside and connections make. -/
inductive Reachable : Entries → Prop
  | empty : Reachable .empty
  | put {entries : Entries} (h : Reachable entries) (key value : String) :
      Reachable (entries.put key value)
  | turn {entries entries' : Entries} {input reply rest : List UInt8} (h : Reachable entries)
      (wire : Wire) (stalled : Bool)
      (hturn : wire.turn stalled entries input = .next reply entries' rest) : Reachable entries'

/-- A length that 64 bits hold is announced, and no buffer can be as long as it asks for. A value
that a text connection can store is found by a frame, and the header of the response, with all of
the value behind it, says that nothing follows. -/
theorem lengths_wrap :
    Decimal.unsigned Decimal.max64 "18446744073709551615".toList = .ok Decimal.max64 ∧
      (∀ stalled entries rest, TextWire.turn stalled entries
        (Utf8.encode "set foo 0 0 18446744073709551615\r\n" ++ rest) =
          .last (.broken .overflow)) ∧
      ∃ entries reply later, Reachable entries ∧
        BinaryWire.turn false entries (Request.pack ⟨0x00, 7, [], "foo", []⟩) =
          .next reply later [] ∧
        reply.length = headerLength + wordLimit ∧ (Header.ofBytes reply).bodyLength = 0 := by
  have hnumber : Decimal.unsigned Decimal.max64 "18446744073709551615".toList =
      .ok Decimal.max64 := by rfl
  refine ⟨hnumber, fun stalled entries rest ↦ ?_, ?_⟩
  · have hwords : words "set foo 0 0 18446744073709551615\r\n" =
        ["set", "foo", "0", "0", "18446744073709551615"] := by decide
    have hline := TextWire.splitLine_encode
      (show '\n' ∉ "set foo 0 0 18446744073709551615".toList by decide) rest
    change TextWire.splitLine (Utf8.encode "set foo 0 0 18446744073709551615\r\n" ++ rest) =
      (Utf8.encode "set foo 0 0 18446744073709551615\r\n", rest) at hline
    have hsome : Utf8.encode "set foo 0 0 18446744073709551615\r\n" ++ rest ≠ [] :=
      TextWire.encode_line_ne_nil "set foo 0 0 18446744073709551615" rest
    rw [TextWire.turn, if_neg hsome, hline, Utf8.decode?_encode]
    simp only [hwords]
    rfl
  · -- The value is never looked at, so nothing is said of it but its length.
    obtain ⟨data, hdata⟩ : ∃ data : List UInt8, data.length = wordLimit - 4 :=
      ⟨List.replicate (wordLimit - 4) 0, List.length_replicate⟩
    have hfits : data.length + 2 < TextWire.memoryLimit := by
      rw [hdata]
      decide
    let order : TextWire.Order :=
      .set (.word "foo" (by decide) rfl) 0 (.number 0) ⟨data, hfits⟩ false
    have hquit : order.isQuit = false := rfl
    obtain ⟨entries, hspace, hstore⟩ := TextWire.Order.turn_bytes .empty hquit []
    let packet : Packet :=
      ⟨⟨0x00, 7, [], "foo", []⟩, {}, by decide, by decide, by decide⟩
    have hincoming := packet.incoming_bytes []
    obtain ⟨later, -, hread⟩ := BinaryWire.turn_of_incoming entries hincoming rfl
    rw [List.append_nil] at hread
    have hfound : entries.space "foo" = some ⟨0, data⟩ := by
      rw [hspace]
      rfl
    have hresponse : packet.request.response entries.space =
        packet.request.respond 0 (bigEndian 4 0) data := by
      simp only [Request.response, packet, hfound]
      rfl
    have hbody : (packet.request.response entries.space).extras.length +
        (packet.request.response entries.space).value.length = wordLimit := by
      rw [hresponse]
      change (bigEndian 4 0).length + data.length = wordLimit
      rw [length_bigEndian, hdata]
      decide
    refine ⟨entries, _, later, .turn .empty .ascii false hstore, hread, ?_, ?_⟩
    · rw [Response.length_pack, hbody]
    · rw [(Response.ofBytes_pack_lengths _).2, hbody, Nat.mod_self]

end CacheCheck.Memcached
