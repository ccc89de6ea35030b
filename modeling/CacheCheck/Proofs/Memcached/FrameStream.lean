import CacheCheck.Memcached.Endpoint
import CacheCheck.Proofs.Memcached.FrameCodec
import CacheCheck.Proofs.Memcached.Turns

/-!
Binary connections, whatever is sent on them. Any input begins with some number of live frames, each
whole and none asking to quit (`liveFrames`), and no longer run of live frames is in front of it
(`isPrefix_liveFrames`). Serving the input is serving those frames: what is behind them is never
carried out, not even in part, and is never answered; it only decides how the connection ends
(`endingOf`).

More input has the same live frames in front, and perhaps further ones (`liveFrames_isPrefix`). So a
connection that is cut off anywhere has carried out a number of the frames that were meant, whole,
and has sent the beginning of the replies to all of them (`serve_liveFrames`).
-/

set_option autoImplicit false

namespace CacheCheck.Memcached

/-- A header is read from its own bytes. -/
theorem Header.ofBytes_append {bytes : List UInt8} (h : headerLength ≤ bytes.length)
    (rest : List UInt8) : ofBytes (bytes ++ rest) = ofBytes bytes := by
  have hlong : 24 ≤ bytes.length := h
  have hpart (start width : Nat) (hfits : start + width ≤ 24) :
      ((bytes ++ rest).drop start).take width = (bytes.drop start).take width := by
    rw [List.drop_append_of_le_length (by omega),
      List.take_append_of_le_length (by rw [List.length_drop]; omega)]
  have hbyte (start : Nat) (hfits : start < 24) :
      ((bytes ++ rest).drop start).headD 0 = (bytes.drop start).headD 0 := by
    rw [List.drop_append_of_le_length (by omega)]
    cases hdrop : bytes.drop start with
    | nil =>
      rw [List.drop_eq_nil_iff] at hdrop
      omega
    | cons b more => rfl
  have hfirst : (bytes ++ rest).headD 0 = bytes.headD 0 := hbyte 0 (by omega)
  simp only [ofBytes, hfirst, hbyte 1 (by omega), hpart 2 2 (by omega), hpart 4 1 (by omega),
    hpart 6 2 (by omega), hpart 8 4 (by omega), hpart 12 4 (by omega)]

namespace BinaryWire

/-! ### Live frames -/

/-- One frame and nothing else: a header with the request mark, whose parts are no longer than its
body, and all of the body. -/
structure IsFrame (bytes : List UInt8) : Prop where
  header_whole : headerLength ≤ bytes.length
  mark_eq : (Header.ofBytes bytes).mark = requestMark
  parts_le : (Header.ofBytes bytes).keyLength + (Header.ofBytes bytes).extrasLength ≤
    (Header.ofBytes bytes).bodyLength
  length_eq : bytes.length = headerLength + (Header.ofBytes bytes).bodyLength

/-- A frame that does not ask to quit. -/
structure IsLive (bytes : List UInt8) : Prop extends IsFrame bytes where
  opcode_ne : (Header.ofBytes bytes).opcode ≠ 0x07

instance (bytes : List UInt8) : Decidable (IsLive bytes) :=
  decidable_of_iff
    (headerLength ≤ bytes.length ∧ (Header.ofBytes bytes).mark = requestMark ∧
      (Header.ofBytes bytes).keyLength + (Header.ofBytes bytes).extrasLength ≤
        (Header.ofBytes bytes).bodyLength ∧
      bytes.length = headerLength + (Header.ofBytes bytes).bodyLength ∧
      (Header.ofBytes bytes).opcode ≠ 0x07)
    ⟨fun ⟨header, mark, parts, length, opcode⟩ ↦ ⟨⟨header, mark, parts, length⟩, opcode⟩,
      fun ⟨⟨header, mark, parts, length⟩, opcode⟩ ↦ ⟨header, mark, parts, length, opcode⟩⟩

/-- The live frame that an input begins with, and what follows it. -/
def liveFrame? (input : List UInt8) : Option (List UInt8 × List UInt8) :=
  let length := headerLength + (Header.ofBytes input).bodyLength
  if IsLive (input.take length) then some (input.take length, input.drop length) else none

theorem liveFrame?_append {frame : List UInt8} (h : IsLive frame) (rest : List UInt8) :
    liveFrame? (frame ++ rest) = some (frame, rest) := by
  have hlength : headerLength + (Header.ofBytes (frame ++ rest)).bodyLength = frame.length := by
    rw [Header.ofBytes_append h.header_whole, ← h.length_eq]
  simp only [liveFrame?, hlength, List.take_left, List.drop_left, if_pos h]

theorem eq_append_of_liveFrame? {input frame rest : List UInt8}
    (h : liveFrame? input = some (frame, rest)) : IsLive frame ∧ input = frame ++ rest := by
  simp only [liveFrame?] at h
  split at h
  · next hlive =>
    cases h
    exact ⟨hlive, (List.take_append_drop _ input).symm⟩
  · cases h

theorem length_rest_lt_of_liveFrame? {input frame rest : List UInt8}
    (h : liveFrame? input = some (frame, rest)) : rest.length < input.length := by
  obtain ⟨hlive, rfl⟩ := eq_append_of_liveFrame? h
  have hheader : 24 ≤ frame.length := hlive.header_whole
  rw [List.length_append]
  omega

/-- The live frames that an input begins with. -/
def liveFrames (input : List UInt8) : List (List UInt8) :=
  match _h : liveFrame? input with
  | some (frame, rest) => frame :: liveFrames rest
  | none => []
  termination_by input.length
  decreasing_by exact length_rest_lt_of_liveFrame? _h

/-- What is behind the live frames of an input. -/
def tail (input : List UInt8) : List UInt8 :=
  input.drop (liveFrames input).flatten.length

theorem liveFrames_append {frame : List UInt8} (h : IsLive frame) (rest : List UInt8) :
    liveFrames (frame ++ rest) = frame :: liveFrames rest := by
  rw [liveFrames]
  split
  · next heq =>
    rw [liveFrame?_append h] at heq
    cases heq
    rfl
  · next heq =>
    rw [liveFrame?_append h] at heq
    cases heq

theorem liveFrames_eq_nil {input : List UInt8} (h : liveFrame? input = none) :
    liveFrames input = [] := by
  rw [liveFrames]
  split
  · next heq =>
    rw [h] at heq
    cases heq
  · rfl

/-- A run of live frames and a tail without one are found in the input that they make, and every
input is made so. -/
theorem exists_run (input : List UInt8) :
    ∃ run rest, input = run.flatten ++ rest ∧ (∀ frame ∈ run, IsLive frame) ∧
      liveFrame? rest = none ∧ liveFrames input = run := by
  cases h : liveFrame? input with
  | none => exact ⟨[], input, rfl, by simp, h, liveFrames_eq_nil h⟩
  | some cut =>
    obtain ⟨frame, rest⟩ := cut
    obtain ⟨hlive, hinput⟩ := eq_append_of_liveFrame? h
    obtain ⟨run, last, hrest, hrun, hlast, heq⟩ := exists_run rest
    refine ⟨frame :: run, last, ?_, ?_, hlast, ?_⟩
    · rw [hinput, hrest, List.flatten_cons, List.append_assoc]
    · exact List.forall_mem_cons.mpr ⟨hlive, hrun⟩
    · rw [hinput, liveFrames_append hlive, heq]
  termination_by input.length
  decreasing_by exact length_rest_lt_of_liveFrame? h

theorem isLive_of_mem {input frame : List UInt8} (h : frame ∈ liveFrames input) :
    IsLive frame := by
  obtain ⟨run, rest, -, hrun, -, heq⟩ := exists_run input
  exact hrun frame (heq ▸ h)

theorem flatten_append_tail (input : List UInt8) :
    (liveFrames input).flatten ++ tail input = input := by
  obtain ⟨run, rest, hinput, -, -, heq⟩ := exists_run input
  rw [tail, heq]
  subst hinput
  rw [List.drop_left]

theorem liveFrame?_tail (input : List UInt8) : liveFrame? (tail input) = none := by
  obtain ⟨run, rest, hinput, -, hrest, heq⟩ := exists_run input
  rw [tail, heq]
  subst hinput
  rwa [List.drop_left]

/-- No run of live frames in front of an input is longer than the one that is found. -/
theorem isPrefix_liveFrames {run : List (List UInt8)} (hrun : ∀ frame ∈ run, IsLive frame)
    (rest : List UInt8) : run <+: liveFrames (run.flatten ++ rest) := by
  induction run with
  | nil => exact List.nil_prefix
  | cons frame others ih =>
    rw [List.flatten_cons, List.append_assoc,
      liveFrames_append (hrun frame List.mem_cons_self), List.prefix_cons_inj]
    exact ih fun other hmem ↦ hrun other (List.mem_cons_of_mem _ hmem)

/-- More input has the same live frames in front. -/
theorem liveFrames_isPrefix {first input : List UInt8} (h : first <+: input) :
    liveFrames first <+: liveFrames input := by
  obtain ⟨more, rfl⟩ := h
  have hcut := flatten_append_tail first
  have hlive : ∀ frame ∈ liveFrames first, IsLive frame := fun _ hmem ↦ isLive_of_mem hmem
  have hrun := isPrefix_liveFrames hlive (tail first ++ more)
  rwa [← List.append_assoc, hcut] at hrun

/-! ### Turns -/

/-- What a request that does not quit comes to, whatever follows it. -/
theorem execute_next (entries : Entries) {request : Request} (hcode : request.opcode ≠ 0x07) :
    ∃ reply entries', ∀ rest, execute false entries request rest = .next reply entries' rest := by
  unfold execute
  cases hoperation : Operation.ofCode request.opcode with
  | get => cases entries.get? request.key <;> exact ⟨_, _, fun rest ↦ rfl⟩
  | quit =>
    refine absurd ?_ hcode
    unfold Operation.ofCode at hoperation
    split at hoperation
    case h_6 hseven => exact UInt8.toNat_inj.mp hseven
    all_goals cases hoperation
  | _ => exact ⟨_, _, fun rest ↦ rfl⟩

theorem incoming_frame {frame : List UInt8} (h : IsFrame frame) (rest : List UInt8) :
    incoming (frame ++ rest) =
      .request (requestOf (Header.ofBytes frame) (frame.drop headerLength)) rest := by
  have hbody : (Header.ofBytes frame).bodyLength = (frame.drop headerLength).length := by
    rw [List.length_drop, h.length_eq, Nat.add_sub_cancel_left]
  have hcut : frame ++ rest = frame.take headerLength ++ (frame.drop headerLength ++ rest) := by
    rw [← List.append_assoc, List.take_append_drop]
  have hheader : Header.ofBytes (frame.take headerLength ++ (frame.drop headerLength ++ rest)) =
      Header.ofBytes frame := by
    rw [← hcut, Header.ofBytes_append h.header_whole]
  rw [hcut]
  exact incoming_of_header (List.length_take_of_le h.header_whole) hheader h.mark_eq hbody
    (hbody ▸ h.parts_le)

theorem IsLive.isWhole {frame : List UInt8} (h : IsLive frame) : IsWhole (turn false) frame := by
  intro entries
  have hcode : (requestOf (Header.ofBytes frame) (frame.drop headerLength)).opcode ≠ 0x07 :=
    h.opcode_ne
  obtain ⟨reply, entries', hnext⟩ := execute_next entries hcode
  refine ⟨reply, entries', fun rest ↦ ?_⟩
  rw [turn, incoming_frame h.toIsFrame]
  exact hnext rest

/-- How a connection ends whose next bytes are no live frame. -/
def endingOf (bytes : List UInt8) : Ending :=
  let header := Header.ofBytes bytes
  if bytes.length < headerLength then .closed
  else if header.mark ≠ requestMark then .broken .badMark
  else if header.bodyLength < header.keyLength + header.extrasLength then .broken .shortBody
  else if bytes.length < headerLength + header.bodyLength then .broken .cutShort
  else .quit

/-- A header with the request mark is that of a frame, when all it speaks of is there. -/
theorem isFrame_take {bytes : List UInt8} (hmark : (Header.ofBytes bytes).mark = requestMark)
    (hparts : (Header.ofBytes bytes).keyLength + (Header.ofBytes bytes).extrasLength ≤
      (Header.ofBytes bytes).bodyLength)
    (hwhole : headerLength + (Header.ofBytes bytes).bodyLength ≤ bytes.length) :
    IsFrame (bytes.take (headerLength + (Header.ofBytes bytes).bodyLength)) := by
  generalize hlength : headerLength + (Header.ofBytes bytes).bodyLength = length at *
  have htake : (bytes.take length).length = length := List.length_take_of_le hwhole
  have hheader : Header.ofBytes (bytes.take length) = Header.ofBytes bytes := by
    have hwhole : headerLength ≤ (bytes.take length).length := by omega
    have happend := Header.ofBytes_append hwhole (bytes.drop length)
    rwa [List.take_append_drop, eq_comm] at happend
  exact
    { header_whole := by omega
      mark_eq := by rwa [hheader]
      parts_le := by rwa [hheader]
      length_eq := by rw [hheader, htake, hlength] }

/-- A request is read from a frame, the one that the input begins with. -/
theorem exists_frame_of_incoming {input rest : List UInt8} {request : Request}
    (h : incoming input = .request request rest) :
    ∃ frame, IsFrame frame ∧ input = frame ++ rest ∧
      request = requestOf (Header.ofBytes frame) (frame.drop headerLength) := by
  obtain ⟨hmark, hparts, hwhole⟩ : (Header.ofBytes input).mark = requestMark ∧
      (Header.ofBytes input).keyLength + (Header.ofBytes input).extrasLength ≤
        (Header.ofBytes input).bodyLength ∧
      headerLength + (Header.ofBytes input).bodyLength ≤ input.length := by
    unfold incoming at h
    split at h
    · cases h
    next hlong =>
    simp only at h
    split at h
    · cases h
    next hmark =>
    split at h
    · cases h
    next hparts =>
    split at h
    · cases h
    next hbody =>
    rw [List.length_drop] at hbody
    exact ⟨Decidable.not_not.mp hmark, Nat.not_lt.mp hparts, by omega⟩
  have hframe := isFrame_take hmark hparts hwhole
  have hread := incoming_frame hframe
    (input.drop (headerLength + (Header.ofBytes input).bodyLength))
  rw [List.take_append_drop, h] at hread
  cases hread
  exact ⟨_, hframe, (List.take_append_drop _ input).symm, rfl⟩

theorem turn_quit (entries : Entries) {frame : List UInt8} (h : IsFrame frame)
    (hcode : (Header.ofBytes frame).opcode = 0x07) (rest : List UInt8) :
    turn false entries (frame ++ rest) = .last .quit := by
  rw [turn, incoming_frame h]
  simp only [execute, requestOf, hcode]
  rfl

/-- Bytes that are no live frame end the connection, and nothing else. -/
theorem turn_of_not_live (entries : Entries) {bytes : List UInt8}
    (h : liveFrame? bytes = none) : turn false entries bytes = .last (endingOf bytes) := by
  simp only [endingOf]
  split
  · next hshort => rw [turn, incoming, if_pos hshort]
  next hlong =>
  split
  · next hmark =>
    rw [turn, incoming, if_neg hlong]
    simp only [if_pos hmark]
  next hmark =>
  split
  · next hparts =>
    rw [turn, incoming, if_neg hlong]
    simp only [if_neg hmark, if_pos hparts]
  next hparts =>
  split
  · next hcut =>
    have hbody : (bytes.drop headerLength).length < (Header.ofBytes bytes).bodyLength := by
      rw [List.length_drop]
      omega
    rw [turn, incoming, if_neg hlong]
    simp only [if_neg hmark, if_neg hparts, if_pos hbody]
  · next hwhole =>
    -- A whole frame that is not live can only be one that quits.
    have hframe := isFrame_take (Decidable.not_not.mp hmark) (Nat.not_lt.mp hparts)
      (Nat.not_lt.mp hwhole)
    have hcode : (Header.ofBytes
        (bytes.take (headerLength + (Header.ofBytes bytes).bodyLength))).opcode = 0x07 := by
      refine Decidable.byContradiction fun hlive ↦ ?_
      simp only [liveFrame?, if_pos (IsLive.mk hframe hlive)] at h
      cases h
    have hquit := turn_quit entries hframe hcode
      (bytes.drop (headerLength + (Header.ofBytes bytes).bodyLength))
    rwa [List.take_append_drop] at hquit

/-! ### Connections -/

theorem serve_append_tail (entries : Entries) (input : List UInt8) :
    (serve false entries (liveFrames input).flatten).ending = .closed ∧
      serve false entries input =
        { serve false entries (liveFrames input).flatten with
          ending := endingOf (tail input) } := by
  have hwhole : ∀ frame ∈ liveFrames input, IsWhole (turn false) frame :=
    fun _ hmem ↦ (isLive_of_mem hmem).isWhole
  obtain ⟨hending, hserve⟩ := @takeTurns_flatten _ (turn_shorter false)
    (fun _ ↦ rfl) _ hwhole entries
  refine ⟨hending, ?_⟩
  have hinput := hserve (tail input)
  rw [flatten_append_tail, takeTurns_last (turn_of_not_live _ (liveFrame?_tail input))] at hinput
  rw [serve, hinput, Served.after, List.append_nil]
  rfl

end BinaryWire

/-- What a connection that begins with the request mark sends, or the beginning of it, is served as
frames. -/
theorem serve_eq_of_isPrefix {input first : List UInt8} (hmark : input.head? = some requestMark)
    (hfirst : first <+: input) (stalled : Bool) (entries : Entries) :
    serve stalled entries first = BinaryWire.serve stalled entries first := by
  cases first with
  | nil =>
    have htext : TextWire.serve stalled entries [] = ⟨[], entries, .closed⟩ := takeTurns_last rfl
    have hbinary : BinaryWire.serve stalled entries [] = ⟨[], entries, .closed⟩ :=
      takeTurns_last rfl
    exact htext.trans hbinary.symm
  | cons b rest =>
    obtain ⟨more, rfl⟩ := hfirst
    have hhead : (b :: rest).head? = some requestMark := hmark
    rw [serve, Wire.ofInput, if_pos hhead]
    rfl

open BinaryWire

/-- Bytes that a connection breaks on: a header that is no request's or whose parts are longer than
its body, or one whose body is not all there. -/
def BreaksOff (bytes : List UInt8) : Prop :=
  headerLength ≤ bytes.length ∧
    ((Header.ofBytes bytes).mark ≠ requestMark ∨
      (Header.ofBytes bytes).bodyLength <
        (Header.ofBytes bytes).keyLength + (Header.ofBytes bytes).extrasLength ∨
      bytes.length < headerLength + (Header.ofBytes bytes).bodyLength)

theorem endingOf_eq_broken_iff (bytes : List UInt8) :
    (∃ cause, endingOf bytes = .broken cause) ↔ BreaksOff bytes := by
  unfold endingOf BreaksOff
  simp only
  split
  · next hshort => simp [Nat.not_le.mpr hshort]
  next hlong =>
  split
  · next hmark => simp [Nat.not_lt.mp hlong, hmark]
  next hmark =>
  split
  · next hparts => simp [Nat.not_lt.mp hlong, hparts]
  next hparts =>
  split
  · next hcut => simp [Nat.not_lt.mp hlong, hcut]
  · next hwhole => simp [hmark, hparts, hwhole]

/-- What a binary connection comes to that is sent any bytes. -/
structure ServedByFrames (entries : Entries) (input : List UInt8) : Prop where
  /-- The input begins with live frames, and with no longer run of them. -/
  isLive : ∀ frame ∈ liveFrames input, IsLive frame
  input_eq : input = (liveFrames input).flatten ++ tail input
  longest : ∀ run : List (List UInt8), (∀ frame ∈ run, IsLive frame) → run.flatten <+: input →
    run <+: liveFrames input
  /-- They are carried out and answered, and nothing else is. -/
  entries_eq : (serve false entries input).entries =
    (serve false entries (liveFrames input).flatten).entries
  reply_eq : (serve false entries input).reply =
    (serve false entries (liveFrames input).flatten).reply
  /-- What is behind them breaks the connection, or lets it close. -/
  broken_iff : (∃ cause, (serve false entries input).ending = .broken cause) ↔
    BreaksOff (tail input)
  /-- A connection that is cut off has served some of them, and sent the beginning of the reply. -/
  cut : ∀ first, first <+: input → ∃ count ≤ (liveFrames input).length,
    (serve false entries first).entries =
        (serve false entries ((liveFrames input).take count).flatten).entries ∧
      (serve false entries first).reply =
        (serve false entries ((liveFrames input).take count).flatten).reply ∧
      (serve false entries first).reply <+: (serve false entries input).reply

/-- A binary connection is served frame by frame, whatever bytes are sent on it. -/
theorem serve_liveFrames (entries : Entries) {input : List UInt8}
    (hmark : input.head? = some requestMark) : ServedByFrames entries input := by
  have hbinary {first : List UInt8} (hfirst : first <+: input) :
      serve false entries first = BinaryWire.serve false entries first :=
    serve_eq_of_isPrefix hmark hfirst false entries
  have hframes (count : Nat) : ((liveFrames input).take count).flatten <+: input := by
    refine List.IsPrefix.trans ?_ ⟨_, flatten_append_tail input⟩
    refine ⟨((liveFrames input).drop count).flatten, ?_⟩
    rw [← List.flatten_append, List.take_append_drop]
  have hall : (liveFrames input).flatten <+: input := ⟨_, flatten_append_tail input⟩
  obtain ⟨-, hserve⟩ := serve_append_tail entries input
  refine
    { isLive := fun _ ↦ isLive_of_mem
      input_eq := (flatten_append_tail input).symm
      longest := ?_
      entries_eq := ?_
      reply_eq := ?_
      broken_iff := ?_
      cut := ?_ }
  · rintro run hrun ⟨rest, rfl⟩
    exact isPrefix_liveFrames hrun rest
  · rw [hbinary (List.prefix_refl input), hbinary hall, hserve]
  · rw [hbinary (List.prefix_refl input), hbinary hall, hserve]
  · rw [hbinary (List.prefix_refl input), hserve]
    exact endingOf_eq_broken_iff (tail input)
  · intro first hfirst
    have hprefix := liveFrames_isPrefix hfirst
    have htake : liveFrames first = (liveFrames input).take (liveFrames first).length :=
      List.prefix_iff_eq_take.mp hprefix
    obtain ⟨-, hcut⟩ := serve_append_tail entries first
    refine ⟨(liveFrames first).length, hprefix.length_le, ?_, ?_, ?_⟩
    · rw [hbinary hfirst, hbinary (hframes _), ← htake, hcut]
    · rw [hbinary hfirst, hbinary (hframes _), ← htake, hcut]
    · have hreply := @reply_take_isPrefix _ (BinaryWire.turn_shorter false) (fun _ ↦ rfl)
        (liveFrames input) (fun _ hmem ↦ (isLive_of_mem hmem).isWhole) entries
        (liveFrames first).length (tail input)
      rw [flatten_append_tail, ← htake] at hreply
      rw [hbinary hfirst, hbinary (List.prefix_refl input), hcut]
      exact hreply

/-- A store and, behind it, a deletion of the same key whose body is cut off. -/
def cutDeletion : List UInt8 :=
  Request.pack ⟨0x01, 7, List.replicate 8 0, "foo", [0x62, 0x61, 0x72]⟩ ++
    (Request.pack ⟨0x04, 8, [], "foo", []⟩).take 25

theorem serve_liveFrames_cutDeletion :
    cutDeletion.head? = some requestMark ∧ ServedByFrames .empty cutDeletion ∧
      liveFrames cutDeletion =
        [Request.pack ⟨0x01, 7, List.replicate 8 0, "foo", [0x62, 0x61, 0x72]⟩] ∧
      ∃ cause, (serve false .empty cutDeletion).ending = .broken cause := by
  have hlive : liveFrames cutDeletion =
      [Request.pack ⟨0x01, 7, List.replicate 8 0, "foo", [0x62, 0x61, 0x72]⟩] := by
    rw [cutDeletion, liveFrames_append (by decide), liveFrames_eq_nil (by decide)]
  have hserved := serve_liveFrames .empty (show cutDeletion.head? = some requestMark by decide)
  refine ⟨by decide, hserved, hlive, hserved.broken_iff.mpr ?_⟩
  rw [tail, hlive]
  unfold BreaksOff
  decide

end CacheCheck.Memcached
