import CacheCheck.Memcached.Cache
import CacheCheck.Proofs.Text.Utf8

/-!
Frames are read back as they were written. A header says how long the parts behind it are, so a
frame ends where its lengths say, whatever its parts hold and whatever follows. Both directions of a
connection are streams of frames with nothing between them: `incoming_bytes` takes a request off the
front of a stream, `next?_pack` a response, and `all?_flatMap_pack` reads a whole stream of
responses.
-/

set_option autoImplicit false

namespace CacheCheck.Memcached

/-! ### Headers -/

/-- A number of four bytes or fewer is below this. -/
def wordLimit : Nat := Nat.pow 2 32

theorem ofBigEndian_one {n : Nat} (h : n ≤ 255) : ofBigEndian (bigEndian 1 n) = n :=
  ofBigEndian_bigEndian (by change n < 256; omega)

theorem ofBigEndian_two {n : Nat} (h : n ≤ 65535) : ofBigEndian (bigEndian 2 n) = n :=
  ofBigEndian_bigEndian (by change n < 65536; omega)

theorem ofBigEndian_four {n : Nat} (h : n < wordLimit) : ofBigEndian (bigEndian 4 n) = n :=
  ofBigEndian_bigEndian h

theorem ofNat_ofBigEndian_echo (echo : UInt32) :
    UInt32.ofNat (ofBigEndian (bigEndian 4 echo.toNat)) = echo := by
  rw [ofBigEndian_four echo.toNat_lt, UInt32.ofNat_toNat]

theorem drop_bigEndian {width count : Nat} (n : Nat) (h : width ≤ count) :
    (bigEndian width n).drop count = [] :=
  List.drop_of_length_le (by rwa [length_bigEndian])

/-- The header of a request that has parts of so many bytes. -/
def requestHeader (reserved : Reserved) (opcode : UInt8) (echo : UInt32)
    (extrasLength keyLength valueLength : Nat) : List UInt8 :=
  [requestMark, opcode] ++ bigEndian 2 keyLength ++ bigEndian 1 extrasLength ++
    [reserved.dataType] ++ bigEndian 2 reserved.bucket.toNat ++
    bigEndian 4 (extrasLength + keyLength + valueLength) ++ bigEndian 4 echo.toNat ++
    bigEndian 8 reserved.generation.toNat

theorem frame_eq (reserved : Reserved) (opcode : UInt8) (echo : UInt32)
    (extras key value : List UInt8) :
    frame reserved opcode echo extras key value =
      requestHeader reserved opcode echo extras.length key.length value.length ++
        (extras ++ key ++ value) := by
  simp only [frame, requestHeader, List.append_assoc]

theorem ofBytes_requestHeader (reserved : Reserved) (opcode : UInt8) (echo : UInt32)
    {extrasLength keyLength valueLength : Nat} (hextras : extrasLength ≤ 255)
    (hkey : keyLength ≤ 65535) (hbody : extrasLength + keyLength + valueLength < wordLimit)
    (rest : List UInt8) :
    Header.ofBytes
        (requestHeader reserved opcode echo extrasLength keyLength valueLength ++ rest) =
      { mark := requestMark, opcode, keyLength, extrasLength
        status := reserved.bucket.toNat
        bodyLength := extrasLength + keyLength + valueLength, echo } := by
  have hbucket := ofBigEndian_two (Nat.le_of_lt_succ reserved.bucket.toNat_lt)
  simp [Header.ofBytes, requestHeader, List.drop_append, drop_bigEndian, ofBigEndian_one hextras,
    ofBigEndian_two hkey, ofBigEndian_four hbody, hbucket, ofNat_ofBigEndian_echo]

theorem length_requestHeader (reserved : Reserved) (opcode : UInt8) (echo : UInt32)
    (extrasLength keyLength valueLength : Nat) :
    (requestHeader reserved opcode echo extrasLength keyLength valueLength).length =
      headerLength := by
  simp [requestHeader, headerLength]

/-- A body is cut where the two lengths say. -/
theorem parts_of_body (extras key value : List UInt8) :
    (extras ++ key ++ value).take extras.length = extras ∧
      ((extras ++ key ++ value).drop extras.length).take key.length = key ∧
      (extras ++ key ++ value).drop (extras.length + key.length) = value := by
  refine ⟨?_, ?_, ?_⟩
  · rw [List.append_assoc, List.take_left]
  · rw [List.append_assoc, List.drop_left, List.take_left]
  · rw [← List.drop_drop, List.append_assoc, List.drop_left, List.drop_left]

/-! ### Requests -/

/-- A header with the request mark, and a body as long as it says, are one request. -/
theorem BinaryWire.incoming_of_header {head body rest : List UInt8} {header : Header}
    (hhead : head.length = headerLength)
    (hheader : Header.ofBytes (head ++ (body ++ rest)) = header)
    (hmark : header.mark = requestMark) (hbody : header.bodyLength = body.length)
    (hparts : header.keyLength + header.extrasLength ≤ body.length) :
    incoming (head ++ (body ++ rest)) = .request (requestOf header body) rest := by
  have hlong : ¬ (head ++ (body ++ rest)).length < headerLength := by
    rw [List.length_append]
    omega
  have hdrop : (head ++ (body ++ rest)).drop headerLength = body ++ rest := List.drop_left' hhead
  have hwhole : ¬ (body ++ rest).length < body.length := by
    rw [List.length_append]
    omega
  rw [incoming, if_neg hlong]
  simp only [hheader, hdrop, hbody]
  rw [if_neg (fun hne ↦ hne hmark), if_neg (by omega), if_neg hwhole, List.take_left,
    List.drop_left]

/-- A frame whose parts fit the lengths of a header. The key is any bytes. -/
structure ByteFrame where
  opcode : UInt8
  echo : UInt32
  extras : List UInt8
  key : List UInt8
  value : List UInt8
  reserved : Reserved
  extras_fits : extras.length ≤ 255
  key_fits : key.length ≤ 65535
  body_fits : extras.length + key.length + value.length < wordLimit

namespace ByteFrame

def bytes (sent : ByteFrame) : List UInt8 :=
  frame sent.reserved sent.opcode sent.echo sent.extras sent.key sent.value

/-- The text that the key of a frame is read as. -/
def text (sent : ByteFrame) : String :=
  Utf8.decodeLossy sent.key

/-- The request that a frame is read as. -/
def request (sent : ByteFrame) : Request where
  opcode := sent.opcode
  echo := sent.echo
  extras := sent.extras
  key := sent.text
  value := sent.value

/-- A frame is taken off the front of a stream, and the stream goes on at the next header. -/
theorem incoming_bytes (sent : ByteFrame) (rest : List UInt8) :
    BinaryWire.incoming (sent.bytes ++ rest) = .request sent.request rest := by
  obtain ⟨opcode, echo, extras, key, value, reserved, hextras, hkey, hbody⟩ := sent
  obtain ⟨hcutExtras, hcutKey, hcutValue⟩ := parts_of_body extras key value
  have hlength : (extras ++ key ++ value).length = extras.length + key.length + value.length := by
    simp only [List.length_append]
  have hparts : key.length + extras.length ≤ (extras ++ key ++ value).length := by
    omega
  have hheader := ofBytes_requestHeader reserved opcode echo hextras hkey hbody
    (extras ++ key ++ value ++ rest)
  rw [bytes, frame_eq, List.append_assoc,
    BinaryWire.incoming_of_header (length_requestHeader ..) hheader rfl hlength.symm hparts]
  simp only [BinaryWire.requestOf, hcutExtras, hcutKey, hcutValue, request, text]

end ByteFrame

/-- A request whose parts fit the lengths of a header, with the fields that nobody looks at. -/
structure Packet where
  request : Request
  reserved : Reserved
  extras_fits : request.extras.length ≤ 255
  key_fits : (Utf8.encode request.key).length ≤ 65535
  body_fits : request.extras.length + (Utf8.encode request.key).length + request.value.length <
    wordLimit

namespace Packet

def bytes (packet : Packet) : List UInt8 :=
  packet.request.pack packet.reserved

/-- A request as a frame, with the bytes of its key. -/
def sent (packet : Packet) : ByteFrame where
  opcode := packet.request.opcode
  echo := packet.request.echo
  extras := packet.request.extras
  key := Utf8.encode packet.request.key
  value := packet.request.value
  reserved := packet.reserved
  extras_fits := packet.extras_fits
  key_fits := packet.key_fits
  body_fits := packet.body_fits

/-- A request is read as it was sent. -/
theorem incoming_bytes (packet : Packet) (rest : List UInt8) :
    BinaryWire.incoming (packet.bytes ++ rest) = .request packet.request rest := by
  have hrequest : packet.sent.request = packet.request := by
    simp only [ByteFrame.request, ByteFrame.text, sent, Utf8.decodeLossy_encode]
  have hread := packet.sent.incoming_bytes rest
  rwa [hrequest] at hread

end Packet

/-! ### Responses -/

namespace Response

/-- A response whose parts fit the lengths of a header. -/
structure Fits (response : Response) : Prop where
  extras_fits : response.extras.length ≤ 255
  status_fits : response.status ≤ 65535
  body_fits : response.extras.length + response.value.length < wordLimit

/-- The header of a response that has parts of so many bytes. -/
def packedHeader (response : Response) : List UInt8 :=
  [responseMark, response.opcode, 0, 0] ++ bigEndian 1 response.extras.length ++ [0] ++
    bigEndian 2 response.status ++
    bigEndian 4 (response.extras.length + response.value.length) ++
    bigEndian 4 response.echo.toNat ++ List.replicate 8 0

theorem pack_eq (response : Response) :
    response.pack = response.packedHeader ++ (response.extras ++ response.value) := by
  simp only [pack, packedHeader, List.append_assoc]

theorem length_packedHeader (response : Response) :
    response.packedHeader.length = headerLength := by
  simp [packedHeader, headerLength]

theorem ofBytes_packedHeader {response : Response} (h : response.Fits) (rest : List UInt8) :
    Header.ofBytes (response.packedHeader ++ rest) =
      { mark := responseMark, opcode := response.opcode, keyLength := 0
        extrasLength := response.extras.length
        status := response.status
        bodyLength := response.extras.length + response.value.length
        echo := response.echo } := by
  have hkey : ofBigEndian [0, 0] = 0 := rfl
  simp [Header.ofBytes, packedHeader, List.drop_append, drop_bigEndian,
    ofBigEndian_one h.extras_fits, ofBigEndian_two h.status_fits, ofBigEndian_four h.body_fits,
    ofNat_ofBigEndian_echo, hkey]

/-- Takes a response off the front of a stream, as long as its header says. -/
def next? (stream : List UInt8) : Option (Response × List UInt8) :=
  let header := Header.ofBytes stream
  let rest := stream.drop headerLength
  if stream.length < headerLength ∨ rest.length < header.bodyLength then none
  else
    match ofBytes stream with
    | .ok response => some (response, rest.drop header.bodyLength)
    | .error _ => none

theorem length_rest_lt_of_next? {stream rest : List UInt8} {response : Response}
    (h : next? stream = some (response, rest)) : rest.length < stream.length := by
  simp only [next?] at h
  split at h
  · cases h
  · next hlong =>
    rw [not_or] at hlong
    split at h
    · cases h
      have hheader : 24 ≤ stream.length := Nat.not_lt.mp hlong.1
      simp only [List.length_drop, headerLength]
      omega
    · cases h

/-- Reads a stream of responses with nothing between them. -/
def all? (stream : List UInt8) : Option (List Response) :=
  if stream = [] then some []
  else
    match _h : next? stream with
    | some (response, rest) => (all? rest).map (response :: ·)
    | none => none
  termination_by stream.length
  decreasing_by exact length_rest_lt_of_next? _h

/-- A response is read as it was sent, whatever follows it. -/
theorem ofBytes_pack {response : Response} (h : response.Fits) (rest : List UInt8) :
    ofBytes (response.pack ++ rest) = .ok response := by
  have hheader := ofBytes_packedHeader h (response.extras ++ response.value ++ rest)
  have hdrop : (response.packedHeader ++ (response.extras ++ response.value ++ rest)).drop
      headerLength = response.extras ++ response.value ++ rest :=
    List.drop_left' response.length_packedHeader
  have hbody : (response.extras ++ response.value).length =
      response.extras.length + response.value.length := List.length_append
  rw [pack_eq, List.append_assoc, ofBytes]
  simp only [hheader, hdrop]
  rw [if_neg (fun hne ↦ hne rfl)]
  simp only [← hbody, List.take_left, List.drop_left, Nat.add_zero]

/-- A response is taken off the front of a stream as it was sent. -/
theorem next?_pack {response : Response} (h : response.Fits) (rest : List UInt8) :
    next? (response.pack ++ rest) = some (response, rest) := by
  have hread := ofBytes_pack h rest
  have hhead := response.length_packedHeader
  have hheader := ofBytes_packedHeader h (response.extras ++ response.value ++ rest)
  have hdrop : (response.packedHeader ++ (response.extras ++ response.value ++ rest)).drop
      headerLength = response.extras ++ response.value ++ rest := List.drop_left' hhead
  have hbody : (response.extras ++ response.value).length =
      response.extras.length + response.value.length := List.length_append
  have hlong : ¬ ((response.packedHeader ++
        (response.extras ++ response.value ++ rest)).length < headerLength ∨
      (response.extras ++ response.value ++ rest).length <
        response.extras.length + response.value.length) := by
    simp only [List.length_append] at hhead ⊢
    omega
  rw [pack_eq, List.append_assoc] at hread ⊢
  rw [next?]
  simp only [hheader, hdrop]
  rw [if_neg hlong, hread]
  simp only [← hbody, List.drop_left]

theorem pack_append_ne_nil (response : Response) (rest : List UInt8) :
    response.pack ++ rest ≠ [] := by
  simp [pack]

/-- Responses that were sent one behind the other are read back one by one. -/
theorem all?_flatMap_pack (responses : List Response) (h : ∀ response ∈ responses, response.Fits) :
    all? (responses.flatMap pack) = some responses := by
  induction responses with
  | nil => rw [List.flatMap_nil, all?, if_pos rfl]
  | cons response rest ih =>
    have hnext := next?_pack (h response List.mem_cons_self) (rest.flatMap pack)
    have hrest := ih fun other hmem ↦ h other (List.mem_cons_of_mem _ hmem)
    rw [List.flatMap_cons, all?, if_neg (response.pack_append_ne_nil _)]
    split
    · next heq =>
      rw [hnext] at heq
      cases heq
      rw [hrest, Option.map_some]
    · next heq =>
      rw [hnext] at heq
      cases heq

end Response

end CacheCheck.Memcached
