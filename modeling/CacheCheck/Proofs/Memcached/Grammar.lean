import CacheCheck.Proofs.Memcached.TextSession

/-!
What a text connection accepts. The grammar is a relation between the key space at the start, the
bytes that arrive and what comes of them (`Reads`), and it does not mention how the server reads:
a line is bytes up to a line feed or to the end (`FirstLine`); it is a text when it is the bytes of
one; its words are the runs that lie in the text (`Spaced`); and the words are answered
(`Answered`), or end the connection (`Ended`), by what they are.

The server does what the grammar says, on every sequence of bytes, and the grammar says nothing else
(`reads_iff_serve`). One half is an induction on the derivation, with one lemma for each part of the
grammar that the server reads that part in the same way. The other half is that every sequence of
bytes has a derivation: it begins with a line, a text is spaced in some way, and words are answered
or end the connection (`answered_or_ended`), an answer leaving less to read.
-/

set_option autoImplicit false

namespace CacheCheck.Memcached

/-- What comes of a connection: all that is sent, the key space afterwards, and the end. -/
structure Reading where
  reply : List UInt8
  space : KeySpace
  ending : Ending

/-- The same of a connection that was served, but for how the entries are kept. -/
def Served.reading (served : Served) : Reading :=
  ⟨served.reply, served.entries.space, served.ending⟩

namespace TextWire

/-! ### Lines -/

/-- A line at the front of an input, and what is behind it. A line has a line feed only at its end;
the last one can be without. -/
inductive FirstLine : List UInt8 → List UInt8 → List UInt8 → Prop
  | ended {body rest : List UInt8} (h : 0x0A ∉ body) :
      FirstLine (body ++ 0x0A :: rest) (body ++ [0x0A]) rest
  | unended {body : List UInt8} (hsome : body ≠ []) (h : 0x0A ∉ body) : FirstLine body body []

/-! ### Words -/

/-- Words that begin a command. -/
inductive Known : List String → Prop
  | version : Known ["version"]
  | set (key flags expiry length : String) (options : List String) :
      Known ("set" :: key :: flags :: expiry :: length :: options)
  | get (keys : List String) : Known ("get" :: keys)
  | gets (keys : List String) : Known ("gets" :: keys)
  | delete (key : String) (options : List String) : Known ("delete" :: key :: options)
  | flush (options : List String) : Known ("flush_all" :: options)
  | quit : Known ["quit"]

/-- A word for a number that fits into 32 bits. -/
def IsFlags (word : String) : Prop :=
  ∃ flags : UInt32, Decimal.Numeral word.toList flags.toNat

/-- A word for a number that fits into 64 bits. -/
def IsLength (word : String) : Prop :=
  ∃ length ≤ Decimal.max64, Decimal.Numeral word.toList length

/-- What words are answered, in a key space and in front of an input: the reply, the space
afterwards, and what is left of the input. -/
inductive Answered (space : KeySpace) :
    List String → List UInt8 → List UInt8 → KeySpace → List UInt8 → Prop
  | version {input : List UInt8} :
      Answered space ["version"] input (Utf8.encode "VERSION 1.6.0-fake\r\n") space input
  /-- Data of the announced length is stored, whatever the two bytes behind it are. -/
  | set {key flagsWord expiry lengthWord : String} {options : List String} {flags : UInt32}
      {data : List UInt8} {first second : UInt8} {rest : List UInt8}
      (hflags : Decimal.Numeral flagsWord.toList flags.toNat)
      (hlength : Decimal.Numeral lengthWord.toList data.length)
      (hfits : data.length + 2 < memoryLimit) :
      Answered space ("set" :: key :: flagsWord :: expiry :: lengthWord :: options)
        (data ++ [first, second] ++ rest)
        (if "noreply" ∈ options then [] else Utf8.encode "STORED\r\n")
        (space.put key ⟨flags, data⟩) rest
  /-- Without two numbers there is no data: what follows the line is the next line. -/
  | badSet {key flagsWord expiry lengthWord : String} {options : List String} {input : List UInt8}
      (hbad : ¬ (IsFlags flagsWord ∧ IsLength lengthWord)) :
      Answered space ("set" :: key :: flagsWord :: expiry :: lengthWord :: options) input
        (Utf8.encode "CLIENT_ERROR bad command line format\r\n") space input
  | get {keys : List String} {input : List UInt8} :
      Answered space ("get" :: keys) input
        (keys.flatMap (Order.found false space) ++ Utf8.encode "END\r\n") space input
  | gets {keys : List String} {input : List UInt8} :
      Answered space ("gets" :: keys) input
        (keys.flatMap (Order.found true space) ++ Utf8.encode "END\r\n") space input
  | delete {key : String} {options : List String} {input : List UInt8} :
      Answered space ("delete" :: key :: options) input
        (if (space key).isSome then Utf8.encode "DELETED\r\n" else Utf8.encode "NOT_FOUND\r\n")
        (space.remove key) input
  | flush {options : List String} {input : List UInt8} :
      Answered space ("flush_all" :: options) input (Utf8.encode "OK\r\n") .empty input
  | unknown {found : List String} {input : List UInt8} (hunknown : ¬ Known found) :
      Answered space found input (Utf8.encode "ERROR\r\n") space input

/-- Words that end a connection, in front of an input. -/
inductive Ended : List String → List UInt8 → Ending → Prop
  | quit {input : List UInt8} : Ended ["quit"] input .quit
  | cutShort {key flagsWord expiry lengthWord : String} {options : List String} {length : Nat}
      {input : List UInt8} (hflags : IsFlags flagsWord)
      (hlength : Decimal.Numeral lengthWord.toList length) (hfits : length + 2 < memoryLimit)
      (hshort : input.length < length + 2) :
      Ended ("set" :: key :: flagsWord :: expiry :: lengthWord :: options) input (.broken .cutShort)
  /-- No memory holds the data, or the length of it with two more bytes is no number of 64 bits. -/
  | tooLong {key flagsWord expiry lengthWord : String} {options : List String} {length : Nat}
      {input : List UInt8} (hflags : IsFlags flagsWord)
      (hlength : Decimal.Numeral lengthWord.toList length) (hlong : memoryLimit ≤ length + 2)
      (hrange : length ≤ Decimal.max64) :
      Ended ("set" :: key :: flagsWord :: expiry :: lengthWord :: options) input
        (.broken (if length + 2 ≤ Decimal.max64 then .tooLong else .overflow))

/-! ### Connections -/

/-- What comes of the bytes of a connection. -/
inductive Reads : KeySpace → List UInt8 → Reading → Prop
  | closed {space : KeySpace} : Reads space [] ⟨[], space, .closed⟩
  | notText {space : KeySpace} {input line rest : List UInt8} (hline : FirstLine input line rest)
      (htext : ∀ text, line ≠ Utf8.encode text) :
      Reads space input ⟨[], space, .broken .notText⟩
  | ended {space : KeySpace} {input rest : List UInt8} {text : String} {found : List String}
      {ending : Ending} (hline : FirstLine input (Utf8.encode text) rest)
      (hwords : Spaced text.toList found) (hended : Ended found rest ending) :
      Reads space input ⟨[], space, ending⟩
  | answered {space space' : KeySpace} {input rest rest' reply : List UInt8} {text : String}
      {found : List String} {later : Reading} (hline : FirstLine input (Utf8.encode text) rest)
      (hwords : Spaced text.toList found) (hanswered : Answered space found rest reply space' rest')
      (hlater : Reads space' rest' later) :
      Reads space input ⟨reply ++ later.reply, later.space, later.ending⟩

/-! ### The server reads lines and words as the grammar does -/

theorem FirstLine.ne_nil {input line rest : List UInt8} (h : FirstLine input line rest) :
    input ≠ [] := by
  cases h with
  | ended => simp
  | unended hsome => exact hsome

theorem FirstLine.splitLine_eq {input line rest : List UInt8} (h : FirstLine input line rest) :
    splitLine input = (line, rest) := by
  cases h with
  | ended h => exact splitLine_append _ h
  | unended hsome h => exact splitLine_of_not_mem h

theorem FirstLine.length_lt {input line rest : List UInt8} (h : FirstLine input line rest) :
    rest.length < input.length := by
  have hlt := length_splitLine_snd_lt h.ne_nil
  rwa [h.splitLine_eq] at hlt

theorem exists_firstLine {input : List UInt8} (hsome : input ≠ []) :
    ∃ line rest, FirstLine input line rest := by
  by_cases hfeed : 0x0A ∈ input
  · obtain ⟨body, rest, rfl, hbody⟩ := List.eq_append_cons_of_mem hfeed
    exact ⟨_, rest, .ended hbody⟩
  · exact ⟨input, [], .unended hsome hfeed⟩

theorem turn_of_notText {stalled : Bool} (entries : Entries) {input line rest : List UInt8}
    (hline : FirstLine input line rest) (htext : ∀ text, line ≠ Utf8.encode text) :
    turn stalled entries input = .last (.broken .notText) := by
  have hread : Utf8.decode? line = none := by
    rw [Option.eq_none_iff_forall_ne_some]
    exact fun text hread ↦ htext text (Utf8.decode?_eq_some_iff.mp hread)
  simp only [turn, if_neg hline.ne_nil, hline.splitLine_eq, hread]

theorem turn_of_text {stalled : Bool} (entries : Entries) {input rest : List UInt8} {text : String}
    {found : List String} (hline : FirstLine input (Utf8.encode text) rest)
    (hwords : Spaced text.toList found) :
    turn stalled entries input = execute stalled entries (.ofWords found) rest := by
  simp only [turn, if_neg hline.ne_nil, hline.splitLine_eq, Utf8.decode?_encode,
    spaced_iff.mp hwords]

/-! ### The server carries commands out as the grammar says -/

theorem unsigned_of_flags {word : String} {flags : UInt32}
    (h : Decimal.Numeral word.toList flags.toNat) :
    Decimal.unsigned Decimal.max32 word.toList = .ok flags.toNat :=
  Decimal.unsigned_eq_ok_iff.mpr ⟨h, Nat.le_of_lt_succ flags.toNat_lt⟩

theorem unsigned_of_length {word : String} {length : Nat} (hrange : length ≤ Decimal.max64)
    (h : Decimal.Numeral word.toList length) :
    Decimal.unsigned Decimal.max64 word.toList = .ok length :=
  Decimal.unsigned_eq_ok_iff.mpr ⟨h, hrange⟩

theorem le_max64 {length : Nat} (h : length + 2 < memoryLimit) : length ≤ Decimal.max64 :=
  Nat.le_trans (Nat.le_add_right length 2) (Nat.not_lt.mp (not_max64_lt h))

theorem ofWords_set {flagsWord lengthWord : String} {flags : UInt32} {length : Nat}
    (hflags : Decimal.Numeral flagsWord.toList flags.toNat)
    (hlength : Decimal.Numeral lengthWord.toList length) (hrange : length ≤ Decimal.max64)
    (key expiry : String) (options : List String) :
    Command.ofWords ("set" :: key :: flagsWord :: expiry :: lengthWord :: options) =
      .set key flags length (options.contains "noreply") := by
  rw [Command.ofWords, unsigned_of_flags hflags, unsigned_of_length hrange hlength]
  simp only [UInt32.ofNat_toNat]

theorem ofWords_badSet {flagsWord lengthWord : String}
    (hbad : ¬ (IsFlags flagsWord ∧ IsLength lengthWord)) (key expiry : String)
    (options : List String) :
    Command.ofWords ("set" :: key :: flagsWord :: expiry :: lengthWord :: options) = .badSet := by
  rw [Command.ofWords]
  split
  · next flags length hflags hlength =>
    obtain ⟨hflags, hmax⟩ := Decimal.unsigned_eq_ok_iff.mp hflags
    obtain ⟨hlength, hrange⟩ := Decimal.unsigned_eq_ok_iff.mp hlength
    have hfits : flags < UInt32.size := Nat.lt_succ_of_le hmax
    refine absurd ⟨⟨UInt32.ofNatLT flags hfits, ?_⟩, length, hrange, hlength⟩ hbad
    rwa [UInt32.toNat_ofNatLT]
  · rfl

theorem ofWords_unknown {found : List String} (h : ¬ Known found) :
    Command.ofWords found = .unknown := by
  unfold Command.ofWords
  split
  case h_1 => exact absurd .version h
  case h_2 => exact absurd (.set ..) h
  case h_3 => exact absurd (.get _) h
  case h_4 => exact absurd (.gets _) h
  case h_5 => exact absurd (.delete ..) h
  case h_6 => exact absurd (.flush _) h
  case h_7 => exact absurd .quit h
  case h_8 => rfl

theorem execute_of_answered (entries : Entries) {space' : KeySpace} {found : List String}
    {input reply rest : List UInt8} (h : Answered entries.space found input reply space' rest) :
    ∃ entries', entries'.space = space' ∧
      execute false entries (.ofWords found) input = .next reply entries' rest := by
  cases h with
  | version => exact ⟨entries, rfl, rfl⟩
  | @set key flagsWord expiry lengthWord options flags data first second rest hflags hlength
      hfits =>
    refine ⟨entries.insert key ⟨flags, data⟩, entries.space_insert .., ?_⟩
    rw [ofWords_set hflags hlength (le_max64 hfits), execute_set _ _ _ _ _ hfits]
    simp only [List.contains_iff_mem]
    rfl
  | badSet hbad =>
    rw [ofWords_badSet hbad]
    exact ⟨entries, rfl, rfl⟩
  | get | gets =>
    refine ⟨entries, rfl, ?_⟩
    simp only [Command.ofWords, execute, funext (Order.valueReply_eq_found _ entries)]
    rfl
  | @delete key options input =>
    refine ⟨entries.erase key, entries.space_erase key, ?_⟩
    exact congrArg (fun text ↦ Turn.next text (entries.erase key) input)
      (apply_ite line ((entries.get? key).isSome = true) "DELETED" "NOT_FOUND")
  | flush => exact ⟨.empty, rfl, rfl⟩
  | unknown hunknown =>
    rw [ofWords_unknown hunknown]
    exact ⟨entries, rfl, rfl⟩

theorem execute_of_ended (entries : Entries) {found : List String} {input : List UInt8}
    {ending : Ending} (h : Ended found input ending) :
    execute false entries (.ofWords found) input = .last ending := by
  cases h with
  | quit => rfl
  | @cutShort key flagsWord expiry lengthWord options length input hflags hlength hfits hshort =>
    obtain ⟨flags, hflags⟩ := hflags
    have hmemory : ¬ memoryLimit ≤ length + 2 := Nat.not_le.mpr hfits
    rw [ofWords_set hflags hlength (le_max64 hfits), execute, if_neg (not_max64_lt hfits),
      if_neg hmemory, if_pos hshort]
  | @tooLong key flagsWord expiry lengthWord options length input hflags hlength hlong hrange =>
    obtain ⟨flags, hflags⟩ := hflags
    rw [ofWords_set hflags hlength hrange, execute]
    by_cases hnumber : length + 2 ≤ Decimal.max64
    · rw [if_neg (Nat.not_lt.mpr hnumber), if_pos hlong, if_pos hnumber]
    · rw [if_pos (Nat.not_le.mp hnumber), if_neg hnumber]

/-- Bytes that are enough for a block begin with one. -/
theorem exists_block {length : Nat} {input : List UInt8} (h : length + 2 ≤ input.length) :
    ∃ data first second rest, length = data.length ∧ input = data ++ [first, second] ++ rest := by
  have hdata : (input.take length).length = length := List.length_take_of_le (by omega)
  have hbehind : (input.drop length).length = input.length - length := List.length_drop
  match hdrop : input.drop length with
  | first :: second :: rest =>
    refine ⟨input.take length, first, second, rest, hdata.symm, ?_⟩
    rw [List.append_assoc, List.cons_append, List.singleton_append, ← hdrop,
      List.take_append_drop]
  | [] | [_] =>
    simp only [hdrop, List.length_cons, List.length_nil] at hbehind
    omega

/-- Words are answered or end the connection, and an answer leaves no more than there was. -/
theorem answered_or_ended (space : KeySpace) (found : List String) (input : List UInt8) :
    (∃ reply space' rest, Answered space found input reply space' rest ∧
        rest.length ≤ input.length) ∨
      ∃ ending, Ended found input ending := by
  by_cases hknown : Known found
  · cases hknown with
    | version => exact .inl ⟨_, _, _, .version, Nat.le_refl _⟩
    | set key flagsWord expiry lengthWord options =>
      by_cases hgood : IsFlags flagsWord ∧ IsLength lengthWord
      · obtain ⟨⟨flags, hflags⟩, length, hrange, hlength⟩ := hgood
        by_cases hlong : memoryLimit ≤ length + 2
        · exact .inr ⟨_, .tooLong ⟨flags, hflags⟩ hlength hlong hrange⟩
        by_cases hshort : input.length < length + 2
        · exact .inr ⟨_, .cutShort ⟨flags, hflags⟩ hlength (Nat.not_le.mp hlong) hshort⟩
        obtain ⟨data, first, second, rest, rfl, rfl⟩ := exists_block (Nat.not_lt.mp hshort)
        refine .inl ⟨_, _, rest, .set hflags hlength (Nat.not_le.mp hlong), ?_⟩
        rw [List.length_append]
        exact Nat.le_add_left _ _
      · exact .inl ⟨_, _, _, .badSet hgood, Nat.le_refl _⟩
    | get keys => exact .inl ⟨_, _, _, .get, Nat.le_refl _⟩
    | gets keys => exact .inl ⟨_, _, _, .gets, Nat.le_refl _⟩
    | delete key options => exact .inl ⟨_, _, _, .delete, Nat.le_refl _⟩
    | flush options => exact .inl ⟨_, _, _, .flush, Nat.le_refl _⟩
    | quit => exact .inr ⟨_, .quit⟩
  · exact .inl ⟨_, _, _, .unknown hknown, Nat.le_refl _⟩

/-! ### Connections are read as the grammar says -/

theorem reading_of_last {entries : Entries} {input : List UInt8} {ending : Ending}
    (h : turn false entries input = .last ending) :
    (serve false entries input).reading = ⟨[], entries.space, ending⟩ := by
  rw [serve, takeTurns_last h]
  rfl

theorem reading_of_next {entries entries' : Entries} {input reply rest : List UInt8}
    (h : turn false entries input = .next reply entries' rest) :
    (serve false entries input).reading =
      let later := (serve false entries' rest).reading
      ⟨reply ++ later.reply, later.space, later.ending⟩ := by
  rw [serve, takeTurns_next h]
  rfl

/-- What comes of a connection by the grammar is what the server makes of it. -/
theorem Reads.eq_reading {entries : Entries} {input : List UInt8} {result : Reading}
    (h : Reads entries.space input result) : result = (serve false entries input).reading := by
  generalize hspace : entries.space = space at h
  induction h generalizing entries with
  | closed =>
    subst hspace
    exact (reading_of_last rfl).symm
  | notText hline htext =>
    subst hspace
    exact (reading_of_last (turn_of_notText entries hline htext)).symm
  | ended hline hwords hended =>
    subst hspace
    refine (reading_of_last ?_).symm
    rw [turn_of_text entries hline hwords, execute_of_ended entries hended]
  | answered hline hwords hanswered hlater ih =>
    subst hspace
    obtain ⟨entries', hspace', hexecute⟩ := execute_of_answered entries hanswered
    rw [reading_of_next ((turn_of_text entries hline hwords).trans hexecute), ← ih hspace']

/-- Something comes of every sequence of bytes by the grammar. -/
theorem exists_reads (space : KeySpace) (input : List UInt8) :
    ∃ result, Reads space input result := by
  by_cases hsome : input = []
  · rw [hsome]
    exact ⟨_, .closed⟩
  obtain ⟨line, rest, hline⟩ := exists_firstLine hsome
  by_cases htext : ∃ text, line = Utf8.encode text
  · obtain ⟨text, rfl⟩ := htext
    obtain ⟨found, hwords⟩ := exists_spaced text.toList
    rcases answered_or_ended space found rest with
      ⟨reply, space', rest', hanswered, hle⟩ | ⟨ending, hended⟩
    · have hlt : rest'.length < input.length := Nat.lt_of_le_of_lt hle hline.length_lt
      obtain ⟨later, hlater⟩ := exists_reads space' rest'
      exact ⟨_, .answered hline hwords hanswered hlater⟩
    · exact ⟨_, .ended hline hwords hended⟩
  · exact ⟨_, .notText hline (not_exists.mp htext)⟩
  termination_by input.length

/-- The server accepts its grammar and does what it says, whatever the bytes are. -/
theorem reads_iff_serve (entries : Entries) (input : List UInt8) (result : Reading) :
    Reads entries.space input result ↔ result = (serve false entries input).reading := by
  constructor
  · exact Reads.eq_reading
  · rintro rfl
    obtain ⟨result, h⟩ := exists_reads entries.space input
    exact h.eq_reading ▸ h

end TextWire

end CacheCheck.Memcached
