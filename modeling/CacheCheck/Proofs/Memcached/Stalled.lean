import CacheCheck.Proofs.Memcached.FrameStream
import CacheCheck.Proofs.Memcached.Grammar

/-!
Reads that stall. Two runs are compared on the same entries and the same bytes, one with reads
stalled and one without. They take the same turns until the first command that reads; there the
stalled one ends, and the other goes on (`turn_stalled_of_beginsRead`, `turn_stalled_of_not`).
Which command that is depends on the bytes before it: what looks like a read can stand in the data
of a set, or behind a line that is answered with an error.

The commands before the first read are whole, so that they can be served alone, and then they come
to what the stalled run comes to (`StopsAtRead`). Without a read there is no difference between the
two (`serve_stalled`).

A stalled read does not end its connection at once. It waits, and the connection ends when the
endpoint has shut down (`Connection.step`). What a connection will have sent and left in the end
(`Connection.outlook`) is the same before and after each step, so neither waiting nor the shutdown
adds anything to it.
-/

set_option autoImplicit false

namespace CacheCheck.Memcached

/-! ### Text connections -/

namespace TextWire

/-- The first line of an input asks for values. -/
def BeginsRead (input : List UInt8) : Prop :=
  ∃ text rest verb keys, FirstLine input (Utf8.encode text) rest ∧
    Spaced text.toList (verb :: keys) ∧ (verb = "get" ∨ verb = "gets")

theorem exists_words_of_get {found keys : List String} {long : Bool}
    (h : Command.ofWords found = .get long keys) :
    ∃ verb, found = verb :: keys ∧ (verb = "get" ∨ verb = "gets") := by
  unfold Command.ofWords at h
  split at h
  case h_2 => split at h <;> cases h
  case h_3 =>
    cases h
    exact ⟨_, rfl, .inl rfl⟩
  case h_4 =>
    cases h
    exact ⟨_, rfl, .inr rfl⟩
  all_goals cases h

theorem execute_stalled (entries : Entries) {command : Command}
    (h : ∀ long keys, command ≠ .get long keys) (rest : List UInt8) :
    execute true entries command rest = execute false entries command rest := by
  cases command with
  | get long keys => exact absurd rfl (h long keys)
  | _ => rfl

theorem turn_stalled_of_beginsRead (entries : Entries) {input : List UInt8}
    (h : BeginsRead input) : turn true entries input = .last .stalled := by
  obtain ⟨text, rest, verb, keys, hline, hwords, rfl | rfl⟩ := h
  · rw [turn_of_text entries hline hwords]
    rfl
  · rw [turn_of_text entries hline hwords]
    rfl

theorem turn_stalled_of_not (entries : Entries) {input : List UInt8} (h : ¬ BeginsRead input) :
    turn true entries input = turn false entries input := by
  by_cases hsome : input = []
  · rw [hsome]
    rfl
  obtain ⟨line, rest, hline⟩ := exists_firstLine hsome
  by_cases htext : ∃ text, line = Utf8.encode text
  · obtain ⟨text, rfl⟩ := htext
    obtain ⟨found, hwords⟩ := exists_spaced text.toList
    rw [turn_of_text entries hline hwords, turn_of_text entries hline hwords]
    refine execute_stalled entries (fun long keys hget ↦ ?_) rest
    obtain ⟨verb, rfl, hverb⟩ := exists_words_of_get hget
    exact h ⟨text, rest, verb, keys, hline, hwords, hverb⟩
  · rw [turn_of_notText entries hline (not_exists.mp htext),
      turn_of_notText entries hline (not_exists.mp htext)]

/-- A command takes a block off the input, of a length that does not depend on anything else. -/
theorem exists_block_of_execute {entries entries' : Entries} {command : Command}
    {input reply rest : List UInt8}
    (h : execute false entries command input = .next reply entries' rest) :
    ∃ block, input = block ++ rest ∧ ∀ entries, ∃ reply entries', ∀ more,
      execute false entries command (block ++ more) = .next reply entries' more := by
  cases command with
  | set key flags length noreply =>
    simp only [execute] at h
    split at h
    · cases h
    split at h
    · cases h
    next hfits =>
    split at h
    · cases h
    next hlong =>
    cases h
    obtain ⟨data, first, second, behind, rfl, rfl⟩ := exists_block (Nat.not_lt.mp hlong)
    have hrest : (data ++ [first, second] ++ behind).drop (data.length + 2) = behind := by
      rw [← List.drop_drop, List.append_assoc, List.drop_left]
      rfl
    exact ⟨data ++ [first, second], by rw [hrest], fun entries ↦ ⟨_, _, fun more ↦
      execute_set false entries key flags noreply (Nat.not_le.mp hfits) first second more⟩⟩
  | quit => cases h
  | _ =>
    cases h
    exact ⟨[], rfl, fun entries ↦ ⟨_, _, fun more ↦ rfl⟩⟩

/-- A turn that leaves something took a whole command off the input. -/
theorem exists_whole {entries entries' : Entries} {input reply rest : List UInt8}
    (h : turn false entries input = .next reply entries' rest) (hrest : rest ≠ []) :
    ∃ command, input = command ++ rest ∧ IsWhole (turn false) command ∧
      (BeginsRead command → BeginsRead input) := by
  have hsome : input ≠ [] := by
    rintro rfl
    cases h
  obtain ⟨line, behind, hline⟩ := exists_firstLine hsome
  have htext : ∃ text, line = Utf8.encode text := by
    refine Classical.byContradiction fun hnone ↦ ?_
    rw [turn_of_notText entries hline (not_exists.mp hnone)] at h
    cases h
  obtain ⟨text, htext⟩ := htext
  obtain ⟨found, hwords⟩ := exists_spaced text.toList
  rw [turn_of_text entries (htext ▸ hline) hwords] at h
  obtain ⟨block, hblock, hlocal⟩ := exists_block_of_execute h
  cases hline with
  | unended =>
    -- The last line leaves nothing when it is not ended.
    obtain ⟨-, rfl⟩ := List.append_eq_nil_iff.mp hblock.symm
    exact absurd rfl hrest
  | @ended body behind hbody =>
    have hfirst (more : List UInt8) :
        FirstLine (body ++ 0x0A :: more) (Utf8.encode text) more := htext ▸ .ended hbody
    refine ⟨body ++ 0x0A :: block, ?_, fun entries ↦ ?_, ?_⟩
    · rw [hblock, List.append_assoc, List.cons_append]
    · obtain ⟨reply, entries', hnext⟩ := hlocal entries
      refine ⟨reply, entries', fun more ↦ ?_⟩
      rw [List.append_assoc, List.cons_append, turn_of_text entries (hfirst _) hwords]
      exact hnext more
    · rintro ⟨other, more, verb, keys, hother, hverb⟩
      have hsame : Utf8.encode other = Utf8.encode text :=
        congrArg Prod.fst (hother.splitLine_eq.symm.trans (hfirst block).splitLine_eq)
      exact ⟨other, behind, verb, keys, hsame ▸ hfirst behind, hverb⟩

end TextWire

/-! ### Binary connections -/

namespace BinaryWire

/-- An input begins with a frame that asks for a value. -/
def BeginsRead (input : List UInt8) : Prop :=
  ∃ frame rest, IsFrame frame ∧ (Header.ofBytes frame).opcode = 0x00 ∧ input = frame ++ rest

theorem execute_stalled (entries : Entries) {request : Request} (h : request.opcode ≠ 0x00)
    (rest : List UInt8) :
    execute true entries request rest = execute false entries request rest := by
  unfold execute
  cases hoperation : Operation.ofCode request.opcode with
  | get =>
    refine absurd ?_ h
    unfold Operation.ofCode at hoperation
    split at hoperation
    case h_1 hzero => exact UInt8.toNat_inj.mp hzero
    all_goals cases hoperation
  | _ => rfl

theorem turn_stalled_of_beginsRead (entries : Entries) {input : List UInt8}
    (h : BeginsRead input) : turn true entries input = .last .stalled := by
  obtain ⟨frame, rest, hframe, hcode, rfl⟩ := h
  rw [turn, incoming_frame hframe]
  simp only [execute, requestOf, hcode]
  rfl

theorem turn_stalled_of_not (entries : Entries) {input : List UInt8} (h : ¬ BeginsRead input) :
    turn true entries input = turn false entries input := by
  unfold turn
  cases hincoming : incoming input with
  | request request rest =>
    refine execute_stalled entries (fun hcode ↦ ?_) rest
    obtain ⟨frame, hframe, hinput, rfl⟩ := exists_frame_of_incoming hincoming
    exact h ⟨frame, rest, hframe, hcode, hinput⟩
  | _ => rfl

/-- A turn took a whole frame off the input. -/
theorem exists_whole {entries entries' : Entries} {input reply rest : List UInt8}
    (h : turn false entries input = .next reply entries' rest) :
    ∃ command, input = command ++ rest ∧ IsWhole (turn false) command ∧
      (BeginsRead command → BeginsRead input) := by
  cases hlive : liveFrame? input with
  | none =>
    rw [turn_of_not_live entries hlive] at h
    cases h
  | some cut =>
    obtain ⟨frame, behind⟩ := cut
    obtain ⟨hframe, rfl⟩ := eq_append_of_liveFrame? hlive
    obtain ⟨_, _, hnext⟩ := hframe.isWhole entries
    rw [hnext] at h
    cases h
    refine ⟨frame, rfl, hframe.isWhole, ?_⟩
    rintro ⟨other, more, hother, hcode, rfl⟩
    exact ⟨other, more ++ rest, hother, hcode, List.append_assoc ..⟩

end BinaryWire

/-! ### Both -/

namespace Wire

/-- An input begins with a command that reads. -/
def BeginsRead : Wire → List UInt8 → Prop
  | .binary => BinaryWire.BeginsRead
  | .ascii => TextWire.BeginsRead

variable {wire : Wire} {entries entries' : Entries} {input reply rest : List UInt8}

theorem turn_stalled_of_beginsRead (entries : Entries) (h : wire.BeginsRead input) :
    wire.turn true entries input = .last .stalled := by
  cases wire with
  | binary => exact BinaryWire.turn_stalled_of_beginsRead entries h
  | ascii => exact TextWire.turn_stalled_of_beginsRead entries h

theorem turn_stalled_of_not (entries : Entries) (h : ¬ wire.BeginsRead input) :
    wire.turn true entries input = wire.turn false entries input := by
  cases wire with
  | binary => exact BinaryWire.turn_stalled_of_not entries h
  | ascii => exact TextWire.turn_stalled_of_not entries h

theorem ne_nil_of_beginsRead (h : wire.BeginsRead input) : input ≠ [] := by
  rintro rfl
  cases wire with
  | binary =>
    have hread := BinaryWire.turn_stalled_of_beginsRead .empty h
    cases hread
  | ascii =>
    have hread := TextWire.turn_stalled_of_beginsRead .empty h
    cases hread

theorem exists_whole (h : wire.turn false entries input = .next reply entries' rest)
    (hrest : rest ≠ []) :
    ∃ command, input = command ++ rest ∧ IsWhole (wire.turn false) command ∧
      (wire.BeginsRead command → wire.BeginsRead input) := by
  cases wire with
  | binary => exact BinaryWire.exists_whole h
  | ascii => exact TextWire.exists_whole h hrest

theorem length_rest_lt {stalled : Bool}
    (h : wire.turn stalled entries input = .next reply entries' rest) :
    rest.length < input.length := by
  cases wire with
  | binary => exact BinaryWire.turn_shorter stalled _ _ _ _ _ h
  | ascii => exact TextWire.turn_shorter stalled _ _ _ _ _ h

theorem serve_of_next {stalled : Bool}
    (h : wire.turn stalled entries input = .next reply entries' rest) :
    wire.serve stalled entries input = (wire.serve stalled entries' rest).after reply := by
  cases wire with
  | binary => exact takeTurns_next h
  | ascii => exact takeTurns_next h

theorem serve_of_last {stalled : Bool} {ending : Ending}
    (h : wire.turn stalled entries input = .last ending) :
    wire.serve stalled entries input = ⟨[], entries, ending⟩ := by
  cases wire with
  | binary => exact takeTurns_last h
  | ascii => exact takeTurns_last h

theorem serve_nil (wire : Wire) (entries : Entries) :
    wire.serve false entries [] = ⟨[], entries, .closed⟩ := by
  cases wire with
  | binary => exact takeTurns_last rfl
  | ascii => exact takeTurns_last rfl

/-- Serving, with reads not stalled, comes to a read. -/
def ReachesRead (wire : Wire) (entries : Entries) (input : List UInt8) : Prop :=
  ∃ later left, Comes (wire.turn false) entries input later left ∧ wire.BeginsRead left

/-- What a stalled connection comes to that is sent some commands, none of which reads, and then a
read. -/
structure StopsAtRead (wire : Wire) (entries : Entries) (input : List UInt8)
    (commands : List (List UInt8)) (read : List UInt8) : Prop where
  input_eq : input = commands.flatten ++ read
  isWhole : ∀ command ∈ commands, IsWhole (wire.turn false) command
  not_read : ∀ command ∈ commands, ¬ wire.BeginsRead command
  beginsRead : wire.BeginsRead read
  /-- The commands before the read are carried out and answered, and nothing else is. -/
  entries_eq : (wire.serve true entries input).entries =
    (wire.serve false entries commands.flatten).entries
  reply_eq : (wire.serve true entries input).reply =
    (wire.serve false entries commands.flatten).reply
  ending_eq : (wire.serve true entries input).ending = .stalled
  /-- With reads not stalled, the reply goes on from there. -/
  isPrefix : (wire.serve true entries input).reply <+: (wire.serve false entries input).reply

theorem StopsAtRead.of_beginsRead (entries : Entries) (h : wire.BeginsRead input) :
    wire.StopsAtRead entries input [] input := by
  have hstalled := serve_of_last (turn_stalled_of_beginsRead entries h)
  exact
    { input_eq := rfl
      isWhole := by simp
      not_read := by simp
      beginsRead := h
      entries_eq := by rw [hstalled, List.flatten_nil, serve_nil]
      reply_eq := by rw [hstalled, List.flatten_nil, serve_nil]
      ending_eq := by rw [hstalled]
      isPrefix := by
        rw [hstalled]
        exact List.nil_prefix }

/-- A command that does not read goes in front of what follows it. -/
theorem StopsAtRead.cons {commands : List (List UInt8)} {read : List UInt8}
    (hread : ¬ wire.BeginsRead input)
    (hturn : wire.turn false entries input = .next reply entries' rest)
    (h : wire.StopsAtRead entries' rest commands read) :
    ∃ command, wire.StopsAtRead entries input (command :: commands) read := by
  have hrest : rest ≠ [] := by
    rw [h.input_eq]
    exact List.append_ne_nil_of_right_ne_nil _ (ne_nil_of_beginsRead h.beginsRead)
  obtain ⟨command, hinput, hwhole, hcommand⟩ := exists_whole hturn hrest
  have hstalled : wire.serve true entries input = (wire.serve true entries' rest).after reply :=
    serve_of_next ((turn_stalled_of_not entries hread).trans hturn)
  have hserved : wire.serve false entries input = (wire.serve false entries' rest).after reply :=
    serve_of_next hturn
  have hcommands : wire.serve false entries (command :: commands).flatten =
      (wire.serve false entries' commands.flatten).after reply := by
    obtain ⟨_, _, hnext⟩ := hwhole entries
    have hthis := hnext rest
    rw [← hinput, hturn] at hthis
    cases hthis
    rw [List.flatten_cons]
    exact serve_of_next (hnext commands.flatten)
  exact ⟨command,
    { input_eq := by
        rw [List.flatten_cons, List.append_assoc, ← h.input_eq, ← hinput]
      isWhole := List.forall_mem_cons.mpr ⟨hwhole, h.isWhole⟩
      not_read := List.forall_mem_cons.mpr ⟨fun hbegins ↦ hread (hcommand hbegins), h.not_read⟩
      beginsRead := h.beginsRead
      entries_eq := by
        rw [hstalled, hcommands]
        exact h.entries_eq
      reply_eq := by
        rw [hstalled, hcommands, Served.after, Served.after, h.reply_eq]
      ending_eq := by
        rw [hstalled]
        exact h.ending_eq
      isPrefix := by
        rw [hstalled, hserved]
        exact (List.prefix_append_right_inj reply).mpr h.isPrefix }⟩

/-- A stalled connection that comes to a read stops there. -/
theorem exists_stopsAtRead (h : wire.ReachesRead entries input) :
    ∃ commands read, wire.StopsAtRead entries input commands read := by
  obtain ⟨later, left, hcomes, hleft⟩ := h
  induction hcomes with
  | refl entries input => exact ⟨[], input, .of_beginsRead entries hleft⟩
  | @head entries entries' later input reply rest left hturn hlater ih =>
    by_cases hread : wire.BeginsRead input
    · exact ⟨[], input, .of_beginsRead entries hread⟩
    · obtain ⟨commands, read, hstops⟩ := ih hleft
      obtain ⟨command, hstops⟩ := hstops.cons hread hturn
      exact ⟨command :: commands, read, hstops⟩

/-- Stalling makes no difference to a connection that does not come to a read. -/
theorem serve_stalled_of_not_reachesRead {entries : Entries} {input : List UInt8}
    (h : ¬ wire.ReachesRead entries input) :
    wire.serve true entries input = wire.serve false entries input := by
  have hread : ¬ wire.BeginsRead input := fun hread ↦ h ⟨entries, input, .refl _ _, hread⟩
  have hsame := turn_stalled_of_not entries hread
  cases hturn : wire.turn false entries input with
  | last ending => rw [serve_of_last hturn, serve_of_last (hsame.trans hturn)]
  | next reply entries' rest =>
    have hlater : ¬ wire.ReachesRead entries' rest := fun ⟨later, left, hcomes, hleft⟩ ↦
      h ⟨later, left, .head hturn hcomes, hleft⟩
    have hshorter := length_rest_lt hturn
    rw [serve_of_next hturn, serve_of_next (hsame.trans hturn),
      serve_stalled_of_not_reachesRead hlater]
  termination_by input.length

end Wire

/-! ### Connections over time -/

/-- Where a connection is. -/
inductive Phase
  /-- The next command is read from what is left of the input. -/
  | serving (input : List UInt8)
  /-- A read waits for the endpoint to shut down. -/
  | waiting
  | ended (ending : Ending)

/-- A connection at one time, with what was sent until then and the entries that it left. -/
structure Connection where
  reply : List UInt8
  entries : Entries
  phase : Phase

namespace Connection

/-- A connection on which something has been sent. -/
def opened (entries : Entries) (input : List UInt8) : Connection := ⟨[], entries, .serving input⟩

/-- What a connection whose reads are stalled does next. One that waits looks whether the endpoint
has shut down. -/
def step (wire : Wire) (connection : Connection) (shutDown : Bool) : Connection :=
  match connection.phase with
  | .serving input =>
    match wire.turn true connection.entries input with
    | .next reply entries rest => ⟨connection.reply ++ reply, entries, .serving rest⟩
    | .last .stalled => { connection with phase := .waiting }
    | .last ending => { connection with phase := .ended ending }
  | .waiting => if shutDown then { connection with phase := .ended .stalled } else connection
  | .ended _ => connection

/-- What a connection does while the endpoint is found up or shut down, time after time. -/
def run (wire : Wire) (connection : Connection) (looks : List Bool) : Connection :=
  looks.foldl (step wire) connection

/-- What a connection will have come to in the end. -/
def outlook (wire : Wire) (connection : Connection) : Served :=
  match connection.phase with
  | .serving input => (wire.serve true connection.entries input).after connection.reply
  | .waiting => ⟨connection.reply, connection.entries, .stalled⟩
  | .ended ending => ⟨connection.reply, connection.entries, ending⟩

variable {wire : Wire}

theorem outlook_step (connection : Connection) (shutDown : Bool) :
    (connection.step wire shutDown).outlook wire = connection.outlook wire := by
  obtain ⟨reply, entries, phase⟩ := connection
  cases phase with
  | serving input =>
    simp only [step]
    cases hturn : wire.turn true entries input with
    | next more entries' rest =>
      simp only [outlook]
      rw [Wire.serve_of_next hturn, Served.after_append]
    | last ending =>
      have hlast := Wire.serve_of_last hturn
      cases ending <;> simp only [outlook, hlast, Served.after, List.append_nil]
  | waiting => cases shutDown <;> rfl
  | ended ending => rfl

theorem outlook_run (connection : Connection) (looks : List Bool) :
    (connection.run wire looks).outlook wire = connection.outlook wire := by
  induction looks generalizing connection with
  | nil => rfl
  | cons look looks ih =>
    exact (ih (connection.step wire look)).trans (connection.outlook_step look)

theorem reply_isPrefix (connection : Connection) :
    connection.reply <+: (connection.outlook wire).reply := by
  obtain ⟨reply, entries, phase⟩ := connection
  cases phase with
  | serving input => exact List.prefix_append _ _
  | waiting => exact List.prefix_rfl
  | ended ending => exact List.prefix_rfl

/-- A step of a connection that is still served takes something off the input. -/
theorem length_lt_of_step {connection : Connection} {shutDown : Bool} {rest : List UInt8}
    (h : (connection.step wire shutDown).phase = .serving rest) :
    ∃ input, connection.phase = .serving input ∧ rest.length < input.length := by
  obtain ⟨reply, entries, phase⟩ := connection
  cases phase with
  | serving input =>
    simp only [step] at h
    cases hturn : wire.turn true entries input with
    | next more entries' behind =>
      simp only [hturn] at h
      cases h
      exact ⟨input, rfl, Wire.length_rest_lt hturn⟩
    | last ending => cases ending <;> simp [hturn] at h
  | waiting => cases shutDown <;> cases h
  | ended ending => cases h

theorem length_le_of_run {connection : Connection} {looks : List Bool} {rest : List UInt8}
    (h : (connection.run wire looks).phase = .serving rest) :
    ∃ input, connection.phase = .serving input ∧ rest.length + looks.length ≤ input.length := by
  induction looks generalizing connection with
  | nil => exact ⟨rest, h, Nat.le_refl _⟩
  | cons look looks ih =>
    obtain ⟨middle, hmiddle, hle⟩ := ih h
    obtain ⟨input, hinput, hlt⟩ := length_lt_of_step hmiddle
    refine ⟨input, hinput, ?_⟩
    rw [List.length_cons]
    omega

/-- A connection that is no longer served has come to what it will have come to. -/
theorem eq_outlook_of_not_serving {connection : Connection}
    (h : ∀ input, connection.phase ≠ .serving input) :
    connection.reply = (connection.outlook wire).reply ∧
      connection.entries = (connection.outlook wire).entries ∧
      (connection.step wire true).phase = .ended (connection.outlook wire).ending := by
  obtain ⟨reply, entries, phase⟩ := connection
  cases phase with
  | serving input => exact absurd rfl (h input)
  | waiting => exact ⟨rfl, rfl, rfl⟩
  | ended ending => exact ⟨rfl, rfl, rfl⟩

end Connection

/-- What stalled reads do to a connection. -/
structure Wire.StallsReads (wire : Wire) (entries : Entries) (input : List UInt8) : Prop where
  /-- Without a read there is no difference. -/
  same : ¬ wire.ReachesRead entries input →
    wire.serve true entries input = wire.serve false entries input
  /-- The first read is the end. -/
  stops : wire.ReachesRead entries input →
    ∃ commands read, wire.StopsAtRead entries input commands read
  /-- However long it takes, and whether the endpoint is up or has shut down, nothing else is sent,
  and in the end nothing else has been done. -/
  sent (looks : List Bool) : ((Connection.opened entries input).run wire looks).reply <+:
    (wire.serve true entries input).reply
  done (looks : List Bool) (hlong : input.length < looks.length) :
    ((Connection.opened entries input).run wire looks).reply =
        (wire.serve true entries input).reply ∧
      ((Connection.opened entries input).run wire looks).entries =
        (wire.serve true entries input).entries
  /-- A shutdown ends the connection. -/
  ended (looks : List Bool) (hlong : input.length < looks.length) :
    ((Connection.opened entries input).run wire (looks ++ [true])).phase =
      .ended (wire.serve true entries input).ending

/-- Stalling makes a difference from the first read on, whatever bytes are sent. -/
theorem Wire.serve_stalled (wire : Wire) (entries : Entries) (input : List UInt8) :
    wire.StallsReads entries input := by
  have houtlook (looks : List Bool) :
      ((Connection.opened entries input).run wire looks).outlook wire =
        wire.serve true entries input := Connection.outlook_run _ looks
  have hserved {looks : List Bool} (hlong : input.length < looks.length) (rest : List UInt8) :
      ((Connection.opened entries input).run wire looks).phase ≠ .serving rest := by
    intro hserving
    obtain ⟨_, hinput, hle⟩ := Connection.length_le_of_run hserving
    cases hinput
    omega
  refine
    { same := serve_stalled_of_not_reachesRead
      stops := exists_stopsAtRead
      sent := fun looks ↦ ?_
      done := fun looks hlong ↦ ?_
      ended := fun looks hlong ↦ ?_ }
  · rw [← houtlook looks]
    exact Connection.reply_isPrefix _
  · obtain ⟨hreply, hentries, -⟩ := Connection.eq_outlook_of_not_serving (hserved hlong)
    rw [houtlook] at hreply hentries
    exact ⟨hreply, hentries⟩
  · obtain ⟨-, -, hphase⟩ := Connection.eq_outlook_of_not_serving (hserved hlong)
    rw [houtlook] at hphase
    rw [Connection.run, List.foldl_append]
    exact hphase

end CacheCheck.Memcached
