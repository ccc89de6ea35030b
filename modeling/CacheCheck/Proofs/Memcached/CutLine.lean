import CacheCheck.Proofs.Memcached.TextSession
import CacheCheck.Proofs.Memcached.Turns
import CacheCheck.Proofs.Text.Cut

/-!
Text connections that are cut off. An order ends with its line, or with the block behind the line; a
client that is gone before that has sent a part of it. The beginning of some orders is so many whole
orders and a part of the next one (`exists_cut`), and the whole orders are served as if nothing
followed them (`serve_append`).

A part that reaches into the block does nothing, since blocks are read by their length
(`turn_of_feed_mem`). A part of a line is another matter: the last line need not be ended, so it is
carried out as if it were (`turn_append_feed`). Its words are those of the whole line, the last one
perhaps cut (`CutWords`), and this makes a difference to the entries in one case only: where the key
of a deletion is cut, the key that is left is deleted (`entries_serve_of_not_mem`). The theorem
about connections (`serve_cutOff`) says so for every cut.
-/

set_option autoImplicit false

namespace CacheCheck.Memcached.TextWire

/-! ### Whole orders -/

theorem Order.isWhole {order : Order} (hquit : order.isQuit = false) :
    IsWhole (turn false) order.bytes := by
  intro entries
  have hturn (rest : List UInt8) : turn false entries (order.bytes ++ rest) =
      execute false entries order.command (order.tail ++ rest) := by
    rw [bytes, List.append_assoc, turn_line, ofWords_tokens]
  simp only [hturn]
  cases order with
  | set key flags expiry block noreply =>
    exact ⟨_, _, execute_set false entries key.text flags noreply block.fits 0x0D 0x0A⟩
  | quit => cases hquit
  | _ => exact ⟨_, _, fun rest ↦ rfl⟩

/-! ### Lines that are not ended -/

/-- The last line of an input is carried out as if it were ended. -/
theorem turn_append_feed (stalled : Bool) (entries : Entries) {input : List UInt8}
    (hsome : input ≠ []) (h : 0x0A ∉ input) :
    turn stalled entries (input ++ [0x0A]) = turn stalled entries input := by
  have hended : input ++ [0x0A] ≠ [] := by simp
  rw [turn, turn, if_neg hsome, if_neg hended, splitLine_append [] h, splitLine_of_not_mem h,
    Utf8.decode?_append_feed]
  cases Utf8.decode? input with
  | none => rfl
  | some text => simp only [Option.map_some, words_append_feed]

/-- A turn that uses up the input is the whole connection. -/
theorem serve_of_turn {stalled : Bool} {entries entries' : Entries} {input reply : List UInt8}
    (h : turn stalled entries input = .next reply entries' []) :
    serve stalled entries input = ⟨reply, entries', .closed⟩ := by
  rw [serve, takeTurns_next h, takeTurns_last rfl, Served.after, List.append_nil]

theorem serve_append_feed (entries : Entries) {input : List UInt8} (hsome : input ≠ [])
    (h : 0x0A ∉ input) :
    serve false entries (input ++ [0x0A]) = serve false entries input := by
  have hturn := turn_append_feed false entries hsome h
  unfold serve
  cases hinput : turn false entries input with
  | next reply entries' rest => rw [takeTurns_next hinput, takeTurns_next (hturn.trans hinput)]
  | last ending => rw [takeTurns_last hinput, takeTurns_last (hturn.trans hinput)]

/-! ### Orders that are cut off -/

/-- What a command changes that has no block behind it. -/
theorem entries_of_execute {entries entries' : Entries} {command : Command}
    {reply rest : List UInt8} (h : execute false entries command [] = .next reply entries' rest) :
    rest = [] ∧
      (entries' = entries ∨ (∃ key, command = .delete key ∧ entries' = entries.erase key) ∨
        (command = .flush ∧ entries' = .empty)) := by
  cases command with
  | set key flags length noreply =>
    simp only [execute] at h
    split at h
    · cases h
    split at h
    · cases h
    rw [if_pos (by simp)] at h
    cases h
  | delete key =>
    cases h
    exact ⟨rfl, .inr (.inl ⟨key, rfl, rfl⟩)⟩
  | flush =>
    cases h
    exact ⟨rfl, .inr (.inr ⟨rfl, rfl⟩)⟩
  | quit => cases h
  | _ =>
    cases h
    exact ⟨rfl, .inl rfl⟩

theorem exists_words_of_delete {found : List String} {key : String}
    (h : Command.ofWords found = .delete key) : ∃ more, found = "delete" :: key :: more := by
  unfold Command.ofWords at h
  split at h
  case h_2 => split at h <;> cases h
  all_goals cases h
  exact ⟨_, rfl⟩

theorem exists_words_of_flush {found : List String} (h : Command.ofWords found = .flush) :
    ∃ more, found = "flush_all" :: more := by
  unfold Command.ofWords at h
  split at h
  case h_2 => split at h <;> cases h
  all_goals cases h
  exact ⟨_, rfl⟩

/-- The word that an order begins with. -/
def Order.verb : Order → String
  | version => "version"
  | set .. => "set"
  | get false _ => "get"
  | get true _ => "gets"
  | delete _ => "delete"
  | flush => "flush_all"
  | quit => "quit"

theorem Order.exists_tokens (order : Order) :
    ∃ verb rest, order.tokens = verb :: rest ∧ verb.text = order.verb := by
  cases order with
  | get long keys => cases long <;> exact ⟨_, _, rfl, rfl⟩
  | _ => exact ⟨_, _, rfl, rfl⟩

/-- A line that deletes a key was that of a deletion, of this key or of one that begins so. -/
theorem Order.eq_delete_of_cutWords {order : Order} {key : String} {more : List String}
    (h : CutWords order.tokens ("delete" :: key :: more)) :
    ∃ whole, order = .delete whole ∧
      (key = whole.text ∨ key ≠ "" ∧ key ≠ whole.text ∧ key.toList <+: whole.text.toList) := by
  obtain ⟨first, rest, htokens, hverb⟩ := order.exists_tokens
  rw [htokens] at h
  obtain ⟨hword, hrest⟩ | ⟨hnone, -⟩ := h.uncons
  · rw [hverb] at hword
    cases order with
    | delete whole =>
      cases htokens
      obtain ⟨hkey, -⟩ | ⟨-, hcut⟩ := hrest.uncons
      · exact ⟨whole, rfl, .inl hkey⟩
      · exact ⟨whole, rfl, .inr hcut⟩
    | get long keys => cases long <;> simp [verb] at hword
    | _ => simp [verb] at hword
  · cases hnone

/-- No other order begins with the word that flushes, or with more. -/
theorem Order.eq_flush_of_cutWords {order : Order} {more : List String}
    (h : CutWords order.tokens ("flush_all" :: more)) : order = .flush := by
  obtain ⟨first, rest, htokens, hverb⟩ := order.exists_tokens
  have hfront : "flush_all".toList <+: order.verb.toList := by
    rw [htokens] at h
    obtain ⟨hword, -⟩ | ⟨-, -, -, hcut⟩ := h.uncons
    · exact hword.trans hverb ▸ List.prefix_rfl
    · exact hverb ▸ hcut
  cases order with
  | flush => rfl
  | get long keys => cases long <;> simp [verb] at hfront
  | _ => simp [verb] at hfront

/-- The line of an order, with its end. -/
def Order.line (order : Order) : String :=
  " ".intercalate (order.tokens.map Token.text) ++ "\r\n"

theorem Order.bytes_eq (order : Order) : order.bytes = Utf8.encode order.line ++ order.tail := rfl

/-- A part of an order that holds a line feed holds the whole line. -/
theorem exists_data_of_feed_mem {order : Order} {part : List UInt8} (hpart : part <+: order.bytes)
    (hfeed : 0x0A ∈ part) :
    ∃ data, part = Utf8.encode order.line ++ data ∧ data <+: order.tail := by
  rw [order.bytes_eq] at hpart
  rcases isPrefix_append_iff.mp hpart with hcut | hdata
  · rw [Order.line, encode_ended, List.prefix_concat_iff, ← encode_ended] at hcut
    rcases hcut with hwhole | hcut
    · exact ⟨[], by rw [hwhole, List.append_nil, Order.line], List.nil_prefix⟩
    · exact absurd (hcut.subset hfeed)
        (feed_not_mem_encode (newline_not_mem_intercalate order.tokens))
  · exact hdata

/-- A part of an order without a line feed is a part of the line. -/
theorem isPrefix_line_of_not_mem {order : Order} {part : List UInt8} (hpart : part <+: order.bytes)
    (hfeed : 0x0A ∉ part) : part <+: Utf8.encode order.line := by
  rw [order.bytes_eq] at hpart
  rcases isPrefix_append_iff.mp hpart with hcut | ⟨data, rfl, -⟩
  · exact hcut
  · refine absurd (List.mem_append_left data ?_) hfeed
    rw [Order.line, encode_ended]
    exact List.mem_append_right _ List.mem_cons_self

theorem turn_line_append (entries : Entries) (order : Order) (data : List UInt8) :
    turn false entries (Utf8.encode order.line ++ data) =
      execute false entries order.command data := by
  rw [Order.line, turn_line, order.ofWords_tokens]

theorem turn_order (entries : Entries) (order : Order) :
    turn false entries order.bytes = execute false entries order.command order.tail := by
  rw [order.bytes_eq, turn_line_append]

/-- An order whose block is cut off does nothing. -/
theorem turn_of_feed_mem (entries : Entries) {order : Order} {part : List UInt8}
    (hpart : part <+: order.bytes) (hcut : part ≠ order.bytes) (hfeed : 0x0A ∈ part) :
    turn false entries part = .last (.broken .cutShort) := by
  obtain ⟨data, rfl, hdata⟩ := exists_data_of_feed_mem hpart hfeed
  have hshort : data ≠ order.tail := by
    rintro rfl
    exact hcut rfl
  rw [turn_line_append]
  cases order with
  | set key flags expiry block noreply =>
    have hlength : data.length < block.data.length + 2 := by
      have hle := hdata.length_le
      have hne : data.length ≠ (block.data ++ [0x0D, 0x0A]).length :=
        fun heq ↦ hshort (hdata.eq_of_length heq)
      rw [Order.tail, List.length_append] at hle
      rw [List.length_append] at hne
      exact Nat.lt_of_le_of_ne hle hne
    have hmemory : ¬ memoryLimit ≤ block.data.length + 2 := Nat.not_le.mpr block.fits
    simp only [Order.command, execute, if_neg (not_max64_lt block.fits), if_neg hmemory,
      if_pos hlength]
  | _ => exact absurd (List.prefix_nil.mp hdata) hshort

/-- What an order does whose line is cut off: nothing, or all that it would have done, or the
deletion of a key that begins as the one to be deleted does. -/
theorem entries_serve_of_not_mem (entries : Entries) {order : Order}
    (hquit : order.isQuit = false) {part : List UInt8} (hpart : part <+: order.bytes)
    (hsome : part ≠ []) (hfeed : 0x0A ∉ part) :
    (serve false entries part).entries = entries ∨
      (serve false entries part).entries = (serve false entries order.bytes).entries ∨
      ∃ whole cut, order = .delete whole ∧ cut ≠ "" ∧ cut ≠ whole.text ∧
        cut.toList <+: whole.text.toList ∧
        (serve false entries part).entries = entries.erase cut := by
  cases hread : Utf8.decode? part with
  | none =>
    have hturn : turn false entries part = .last (.broken .notText) := by
      simp only [turn, if_neg hsome, splitLine_of_not_mem hfeed, hread]
    exact .inl (by rw [serve, takeTurns_last hturn])
  | some text =>
    have hturn : turn false entries part = execute false entries (.ofWords (words text)) [] := by
      simp only [turn, if_neg hsome, splitLine_of_not_mem hfeed, hread]
    have hwords : CutWords order.tokens (words text) := cutWords_of_isPrefix order.tokens
      (Utf8.isPrefix_of_decode? (isPrefix_line_of_not_mem hpart hfeed) hread)
    cases hexecute : execute false entries (.ofWords (words text)) [] with
    | last ending => exact .inl (by rw [serve, takeTurns_last (hturn.trans hexecute)])
    | next reply entries' rest =>
      obtain ⟨rfl, hentries⟩ := entries_of_execute hexecute
      rw [serve_of_turn (hturn.trans hexecute)]
      rcases hentries with rfl | ⟨key, hcommand, rfl⟩ | ⟨hcommand, rfl⟩
      · exact .inl rfl
      · obtain ⟨more, hfound⟩ := exists_words_of_delete hcommand
        rw [hfound] at hwords
        obtain ⟨whole, rfl, rfl | ⟨hkey, hne, hfront⟩⟩ := Order.eq_delete_of_cutWords hwords
        · have hwhole := serve_of_turn (turn_order entries (.delete whole))
          exact .inr (.inl (by rw [hwhole]))
        · exact .inr (.inr ⟨whole, key, rfl, hkey, hne, hfront, rfl⟩)
      · obtain ⟨more, hfound⟩ := exists_words_of_flush hcommand
        rw [hfound] at hwords
        obtain rfl := Order.eq_flush_of_cutWords hwords
        have hwhole := serve_of_turn (turn_order entries .flush)
        exact .inr (.inl (by rw [hwhole]))

/-! ### Connections that are cut off -/

theorem exists_cut (orders : List Order) {first : List UInt8}
    (h : first <+: orders.flatMap Order.bytes) :
    ∃ count part, first = (orders.take count).flatMap Order.bytes ++ part ∧
      (part = [] ∨
        ∃ order, orders[count]? = some order ∧ part <+: order.bytes ∧ part ≠ order.bytes) := by
  induction orders generalizing first with
  | nil => exact ⟨0, [], List.prefix_nil.mp h, .inl rfl⟩
  | cons order rest ih =>
    rw [List.flatMap_cons] at h
    rcases isPrefix_append_iff.mp h with hcut | ⟨behind, rfl, hbehind⟩
    · by_cases hwhole : first = order.bytes
      · refine ⟨1, [], ?_, .inl rfl⟩
        rw [hwhole, List.take_succ_cons, List.take_zero, List.flatMap_singleton, List.append_nil]
      · exact ⟨0, first, rfl, .inr ⟨order, rfl, hcut, hwhole⟩⟩
    · obtain ⟨count, part, rfl, hpart⟩ := ih hbehind
      refine ⟨count + 1, part, ?_, hpart⟩
      rw [List.take_succ_cons, List.flatMap_cons, List.append_assoc]

/-- Orders in front of other input are served first. -/
theorem serve_append (entries : Entries) {orders : List Order}
    (hquit : ∀ order ∈ orders, order.isQuit = false) (rest : List UInt8) :
    serve false entries (orders.flatMap Order.bytes ++ rest) =
      (serve false (serve false entries (orders.flatMap Order.bytes)).entries rest).after
        (serve false entries (orders.flatMap Order.bytes)).reply := by
  have hwhole : ∀ piece ∈ orders.map Order.bytes, IsWhole (turn false) piece := by
    intro piece hpiece
    obtain ⟨order, horder, rfl⟩ := List.mem_map.mp hpiece
    exact Order.isWhole (hquit order horder)
  have hserve := (@takeTurns_flatten _ (turn_shorter false) (fun _ ↦ rfl) _ hwhole entries).2 rest
  rwa [← List.flatMap_def] at hserve

/-- An input ends in a line that is not ended. -/
def Unended (part : List UInt8) : Prop :=
  part ≠ [] ∧ 0x0A ∉ part

/-- What a connection comes to that is sent the beginning of some orders: so many orders, and a
part of the next one. -/
structure CutOff (entries : Entries) (orders : List Order) (first : List UInt8) (count : Nat)
    (part : List UInt8) : Prop where
  first_eq : first = (orders.take count).flatMap Order.bytes ++ part
  part_of : part = [] ∨
    ∃ order, orders[count]? = some order ∧ part <+: order.bytes ∧ part ≠ order.bytes
  /-- Cut off between orders or in a block, it has carried out the whole orders and no other. -/
  of_ended : ¬ Unended part →
    (serve false entries first).entries =
        (serve false entries ((orders.take count).flatMap Order.bytes)).entries ∧
      (serve false entries first).reply =
        (serve false entries ((orders.take count).flatMap Order.bytes)).reply ∧
      (serve false entries first).reply <+:
        (serve false entries (orders.flatMap Order.bytes)).reply
  /-- Cut off in a line, it carries the line out as if that were its end. -/
  of_unended : Unended part →
    serve false entries first = serve false entries (first ++ [0x0A])
  /-- That makes a difference to the entries for the key of a deletion alone. -/
  entries_of_unended : Unended part →
    (∃ whole ≤ orders.length, (serve false entries first).entries =
        (serve false entries ((orders.take whole).flatMap Order.bytes)).entries) ∨
      ∃ key cut, orders[count]? = some (.delete key) ∧ cut ≠ "" ∧ cut ≠ key.text ∧
        cut.toList <+: key.text.toList ∧
        (serve false entries first).entries =
          (serve false entries ((orders.take count).flatMap Order.bytes)).entries.erase cut

/-- What a text connection comes to, wherever it is cut off. -/
theorem serve_cutOff (entries : Entries) {orders : List Order}
    (hquit : ∀ order ∈ orders, order.isQuit = false) {first : List UInt8}
    (hfirst : first <+: orders.flatMap Order.bytes) :
    ∃ count part, CutOff entries orders first count part := by
  obtain ⟨count, part, hcut, hpart⟩ := exists_cut orders hfirst
  have htake : ∀ order ∈ orders.take count, order.isQuit = false :=
    fun order hmem ↦ hquit order (List.mem_of_mem_take hmem)
  have hserve := serve_append entries htake
  refine ⟨count, part, hcut, hpart, fun hended ↦ ?_, fun ⟨hsome, hfeed⟩ ↦ ?_,
    fun ⟨hsome, hfeed⟩ ↦ ?_⟩
  · have hlast : ∃ ending, ∀ entries, turn false entries part = .last ending := by
      rcases hpart with rfl | ⟨order, -, hprefix, hne⟩
      · exact ⟨.closed, fun entries ↦ rfl⟩
      by_cases hempty : part = []
      · exact ⟨.closed, fun entries ↦ hempty ▸ rfl⟩
      · have hfeed : 0x0A ∈ part := Decidable.byContradiction fun hfeed ↦ hended ⟨hempty, hfeed⟩
        exact ⟨_, fun entries ↦ turn_of_feed_mem entries hprefix hne hfeed⟩
    obtain ⟨ending, hlast⟩ := hlast
    have hnothing (entries : Entries) : serve false entries part = ⟨[], entries, ending⟩ :=
      takeTurns_last (hlast entries)
    have hpart : serve false entries first =
        { serve false entries ((orders.take count).flatMap Order.bytes) with ending } := by
      rw [hcut, hserve, hnothing, Served.after, List.append_nil]
    have hall := hserve ((orders.drop count).flatMap Order.bytes)
    rw [← List.flatMap_append, List.take_append_drop] at hall
    rw [hpart, hall]
    exact ⟨rfl, rfl, List.prefix_append _ _⟩
  · rw [hcut, List.append_assoc, hserve, hserve, serve_append_feed _ hsome hfeed]
  · obtain ⟨order, horder, hprefix, -⟩ := hpart.resolve_left hsome
    obtain ⟨hcount, -⟩ := List.getElem?_eq_some_iff.mp horder
    have hfirst : (serve false entries first).entries =
        (serve false (serve false entries ((orders.take count).flatMap Order.bytes)).entries
          part).entries := by
      rw [hcut, hserve]
      rfl
    rw [hfirst]
    rcases entries_serve_of_not_mem
      (serve false entries ((orders.take count).flatMap Order.bytes)).entries
      (hquit order (List.mem_of_getElem? horder)) hprefix hsome hfeed with
      hnone | hall | ⟨key, cut, rfl, hdeleted⟩
    · exact .inl ⟨count, Nat.le_of_lt hcount, hnone⟩
    · refine .inl ⟨count + 1, hcount, ?_⟩
      rw [hall, List.take_add_one, horder, List.flatMap_append, Option.toList_some,
        List.flatMap_singleton, hserve]
      rfl
    · exact .inr ⟨key, cut, horder, hdeleted⟩

/-- The end of a line comes too late for a deletion: `foo` was to be deleted, and `fo` is. -/
def fooDeletion : Order := .delete (.word "foo" (by decide) rfl)

@[inherit_doc fooDeletion] def foKept : Entries := Entries.put .empty "fo" "1"

theorem serve_cutOff_fooDeletion :
    (∀ order ∈ [fooDeletion], order.isQuit = false) ∧
      Utf8.encode "delete fo" <+: [fooDeletion].flatMap Order.bytes ∧
      ∃ count part, CutOff foKept [fooDeletion] (Utf8.encode "delete fo") count part := by
  have hquit : ∀ order ∈ [fooDeletion], order.isQuit = false := by
    intro order hmem
    rw [List.mem_singleton.mp hmem]
    rfl
  have hfirst : Utf8.encode "delete fo" <+: [fooDeletion].flatMap Order.bytes := by decide
  exact ⟨hquit, hfirst, serve_cutOff foKept hquit hfirst⟩

/-- A connection that is cut off inside the key of a deletion deletes another key, which no number
of whole orders does, and says so, where the whole order is answered otherwise. -/
theorem serve_cut_in_key :
    Utf8.encode "delete fo" <+: [fooDeletion].flatMap Order.bytes ∧
      (serve false foKept (Utf8.encode "delete fo")).entries.value? "fo" = none ∧
      (∀ count, (serve false foKept
        (([fooDeletion].take count).flatMap Order.bytes)).entries.value? "fo" = some "1") ∧
      ¬ (serve false foKept (Utf8.encode "delete fo")).reply <+:
        (serve false foKept ([fooDeletion].flatMap Order.bytes)).reply := by
  have hcut : serve false foKept (Utf8.encode "delete fo") =
      ⟨line "DELETED", foKept.erase "fo", .closed⟩ := by
    refine serve_of_turn ?_
    rw [turn, if_neg (by decide), splitLine_of_not_mem (by decide), Utf8.decode?_encode]
    have hwords : words "delete fo" = ["delete", "fo"] := by decide
    simp only [hwords]
    rfl
  have hwhole : serve false foKept ([fooDeletion].flatMap Order.bytes) =
      ⟨line "NOT_FOUND", foKept.erase "foo", .closed⟩ := by
    rw [List.flatMap_singleton]
    exact serve_of_turn (turn_order foKept fooDeletion)
  have hnone : serve false foKept ([].flatMap Order.bytes) = ⟨[], foKept, .closed⟩ :=
    takeTurns_last rfl
  have hkept : foKept.value? "fo" = some "1" :=
    congrArg some (Utf8.decodeLossy_encode "1")
  refine ⟨by decide, by rw [hcut]; rfl, fun count ↦ ?_, by rw [hcut, hwhole]; decide⟩
  cases count with
  | zero => rw [List.take_zero, hnone, hkept]
  | succ count =>
    rw [List.take_succ_cons, List.take_nil, hwhole]
    exact hkept

end CacheCheck.Memcached.TextWire
