import CacheCheck.Memcached.TextWire
import CacheCheck.Proofs.Memcached.Conversation
import CacheCheck.Proofs.Text.Decimal
import CacheCheck.Proofs.Text.Tokens
import CacheCheck.Proofs.Text.Utf8

/-!
The text protocol refines a map. An order is a command as a client means it; it is written as a line
of tokens, and the data of a set as a block behind the line. The bytes of an order are one turn of
the server, which takes the key space where the order says and sends the reply that the order calls
for (`turn_bytes`). Nothing in the data can be taken for a line, since the block is cut off by its
length, and nothing in a line can end it early, since no token holds a blank.

So a connection that is sent any number of orders is a conversation with the map itself
(`serve_orders`).
-/

set_option autoImplicit false

namespace CacheCheck.Memcached.TextWire

/-! ### Orders and what they mean -/

/-- Data that fits into one block, with the two bytes behind it. -/
structure Block where
  data : List UInt8
  fits : data.length + 2 < memoryLimit

/-- A command as a client means it. -/
inductive Order
  | version
  | set (key : Token) (flags : UInt32) (expiry : Token) (block : Block) (noreply : Bool)
  | get (long : Bool) (keys : List Token)
  | delete (key : Token)
  | flush
  | quit

namespace Order

/-- The tokens of the line that gives an order. -/
def tokens : Order → List Token
  | version => [.word "version" (by decide) rfl]
  | set key flags expiry block noreply =>
    [.word "set" (by decide) rfl, key, .number flags.toNat, expiry,
      .number block.data.length] ++
      if noreply then [.word "noreply" (by decide) rfl] else []
  | get false keys => .word "get" (by decide) rfl :: keys
  | get true keys => .word "gets" (by decide) rfl :: keys
  | delete key => [.word "delete" (by decide) rfl, key]
  | flush => [.word "flush_all" (by decide) rfl]
  | quit => [.word "quit" (by decide) rfl]

/-- What follows the line: the data of a set. -/
def tail : Order → List UInt8
  | set _ _ _ block _ => block.data ++ [0x0D, 0x0A]
  | _ => []

/-- An order as it is written. -/
def bytes (order : Order) : List UInt8 :=
  Utf8.encode (" ".intercalate (order.tokens.map Token.text) ++ "\r\n") ++ order.tail

/-- What an order does to the key space. -/
def apply (space : KeySpace) : Order → KeySpace
  | set key flags _ block _ => space.put key.text ⟨flags, block.data⟩
  | delete key => space.remove key.text
  | flush => .empty
  | version | get _ _ | quit => space

/-- What a read sends for one key: a line, the data and the end of the line; nothing for a key that
is absent. -/
def found (long : Bool) (space : KeySpace) (key : String) : List UInt8 :=
  match space key with
  | none => []
  | some entry =>
    Utf8.encode ("VALUE " ++ key ++ " " ++ toString entry.flags.toNat ++ " " ++
      toString entry.data.length ++ (if long then " 0" else "") ++ "\r\n") ++
        entry.data ++ Utf8.encode "\r\n"

/-- The reply that an order calls for. -/
def reply (space : KeySpace) : Order → List UInt8
  | version => Utf8.encode "VERSION 1.6.0-fake\r\n"
  | set _ _ _ _ noreply => if noreply then [] else Utf8.encode "STORED\r\n"
  | get long keys =>
    keys.flatMap (fun key ↦ found long space key.text) ++ Utf8.encode "END\r\n"
  | delete key =>
    if (space key.text).isSome then Utf8.encode "DELETED\r\n" else Utf8.encode "NOT_FOUND\r\n"
  | flush => Utf8.encode "OK\r\n"
  | quit => []

def isQuit : Order → Bool
  | quit => true
  | _ => false

def protocol : Protocol Order (List UInt8) where
  bytes := bytes
  apply := apply
  answer := reply
  send := id
  isQuit := isQuit

end Order

/-! ### Lines -/

theorem ne_feed_of_not_mem {line : List UInt8} (h : 0x0A ∉ line) :
    ∀ b ∈ line, decide (b ≠ 0x0A) = true := by
  intro b hb
  simp only [ne_eq, decide_not, Bool.not_eq_true', decide_eq_false_iff_not]
  rintro rfl
  exact h hb

theorem splitLine_append {line : List UInt8} (rest : List UInt8) (h : 0x0A ∉ line) :
    splitLine (line ++ 0x0A :: rest) = (line ++ [0x0A], rest) := by
  unfold splitLine
  rw [List.takeWhile_append_of_pos (ne_feed_of_not_mem h),
    List.dropWhile_append_of_pos (ne_feed_of_not_mem h)]
  simp

theorem splitLine_of_not_mem {input : List UInt8} (h : 0x0A ∉ input) :
    splitLine input = (input, []) := by
  have htake := @List.takeWhile_append_of_pos _ _ input [] (ne_feed_of_not_mem h)
  have hdrop := @List.dropWhile_append_of_pos _ _ input [] (ne_feed_of_not_mem h)
  rw [List.append_nil] at htake hdrop
  rw [splitLine, htake, hdrop]
  simp

theorem feed_not_mem_encode {text : String} (h : '\n' ∉ text.toList) :
    0x0A ∉ Utf8.encode text ++ [0x0D] := by
  intro hmem
  rcases List.mem_append.mp hmem with htext | hreturn
  · obtain ⟨c, hc, hnat⟩ := Utf8.exists_mem_of_mem_encode htext (by decide)
    have hfeed : c = '\n' := Char.toNat_inj.mp hnat
    exact h (hfeed ▸ hc)
  · cases List.mem_singleton.mp hreturn

theorem encode_ended (text : String) :
    Utf8.encode (text ++ "\r\n") = Utf8.encode text ++ [0x0D] ++ [0x0A] := by
  have hend : Utf8.encode "\r\n" = [0x0D, 0x0A] := by decide
  rw [Utf8.encode_append, hend, List.append_assoc]
  rfl

/-- A text without a line feed, once it is ended, is a line. -/
theorem splitLine_encode {text : String} (h : '\n' ∉ text.toList) (rest : List UInt8) :
    splitLine (Utf8.encode (text ++ "\r\n") ++ rest) = (Utf8.encode (text ++ "\r\n"), rest) := by
  rw [encode_ended, List.append_assoc]
  exact splitLine_append rest (feed_not_mem_encode h)

theorem newline_not_mem_intercalate (line : List Token) :
    '\n' ∉ (" ".intercalate (line.map Token.text)).toList := by
  have htoken (token : Token) : '\n' ∉ token.text.toList := by
    intro hmem
    cases token.noBlank '\n' hmem
  induction line with
  | nil => simp
  | cons token rest ih =>
    cases rest with
    | nil => simpa using htoken token
    | cons next others =>
      rw [List.map_cons, List.map_cons, String.intercalate_cons_cons]
      simp only [String.toList_append, List.mem_append, not_or]
      exact ⟨⟨htoken token, by decide⟩, ih⟩

theorem encode_line_ne_nil (text : String) (rest : List UInt8) :
    Utf8.encode (text ++ "\r\n") ++ rest ≠ [] := by
  have hend : Utf8.encode "\r\n" = [0x0D, 0x0A] := by decide
  simp [Utf8.encode_append, hend]

/-- A line of tokens is carried out as the command that the tokens make. -/
theorem turn_line (stalled : Bool) (entries : Entries) (line : List Token) (rest : List UInt8) :
    turn stalled entries
        (Utf8.encode (" ".intercalate (line.map Token.text) ++ "\r\n") ++ rest) =
      execute stalled entries (.ofWords (line.map Token.text)) rest := by
  rw [turn, if_neg (encode_line_ne_nil _ rest),
    splitLine_encode (newline_not_mem_intercalate line) rest, Utf8.decode?_encode]
  change execute stalled entries (.ofWords (words _)) rest = _
  rw [words_intercalate line (by decide) (by simp [isBlank])]

theorem not_max64_lt {length : Nat} (h : length + 2 < memoryLimit) :
    ¬ Decimal.max64 < length + 2 := by
  change length + 2 < 9223372036854775808 at h
  change ¬ 18446744073709551615 < length + 2
  omega

/-- A block of the announced length is stored, whatever the two bytes behind it are. -/
theorem execute_set (stalled : Bool) (entries : Entries) (key : String) (flags : UInt32)
    (noreply : Bool) {data : List UInt8} (hfits : data.length + 2 < memoryLimit)
    (first second : UInt8) (rest : List UInt8) :
    execute stalled entries (.set key flags data.length noreply)
        (data ++ [first, second] ++ rest) =
      .next (if noreply then [] else line "STORED") (entries.insert key ⟨flags, data⟩) rest := by
  have hlong : ¬ (data ++ [first, second] ++ rest).length < data.length + 2 := by
    simp only [List.length_append, List.length_cons, List.length_nil]
    omega
  have htake : (data ++ [first, second] ++ rest).take data.length = data := by
    rw [List.append_assoc, List.take_left]
  have hdrop : (data ++ [first, second] ++ rest).drop (data.length + 2) = rest := by
    rw [← List.drop_drop, List.append_assoc, List.drop_left]
    rfl
  rw [execute, if_neg (not_max64_lt hfits), if_neg (Nat.not_le.mpr hfits), if_neg hlong, htake,
    hdrop]

/-! ### Numbers of a line -/

theorem unsigned_flags (flags : UInt32) :
    Decimal.unsigned Decimal.max32 (toString flags.toNat).toList = .ok flags.toNat :=
  Decimal.unsigned_toString (Nat.le_of_lt_succ flags.toNat_lt)

theorem unsigned_length {length : Nat} (h : length + 2 < memoryLimit) :
    Decimal.unsigned Decimal.max64 (toString length).toList = .ok length :=
  Decimal.unsigned_toString (by
    change length + 2 < 9223372036854775808 at h
    change length ≤ 18446744073709551615
    omega)

/-! ### Turns -/

namespace Order

/-- An order as the server reads it. -/
def command : Order → Command
  | version => .version
  | set key flags _ block noreply => .set key.text flags block.data.length noreply
  | get long keys => .get long (keys.map Token.text)
  | delete key => .delete key.text
  | flush => .flush
  | quit => .quit

theorem ofWords_tokens (order : Order) :
    Command.ofWords (order.tokens.map Token.text) = order.command := by
  cases order with
  | set key flags expiry block noreply =>
    have hset (rest : List String) :
        Command.ofWords ("set" :: key.text :: toString flags.toNat :: expiry.text ::
            toString block.data.length :: rest) =
          .set key.text flags block.data.length (rest.contains "noreply") := by
      rw [Command.ofWords, unsigned_flags, unsigned_length block.fits]
      simp only [UInt32.ofNat_toNat]
    cases noreply
    · exact hset []
    · exact hset ["noreply"]
  | get long keys => cases long <;> rfl
  | version => rfl
  | delete key => rfl
  | flush => rfl
  | quit => rfl

theorem valueReply_eq_found (long : Bool) (entries : Entries) (key : String) :
    valueReply long entries key = found long entries.space key := by
  have hend : Utf8.encode "\r\n" = [0x0D, 0x0A] := by decide
  rw [valueReply, found, Entries.space, hend]
  rfl

/-- What is behind the line of an order is what the command takes from the input. -/
theorem execute_command (entries : Entries) {order : Order} (hquit : order.isQuit = false)
    (rest : List UInt8) :
    ∃ entries', entries'.space = order.apply entries.space ∧
      execute false entries order.command (order.tail ++ rest) =
        .next (order.reply entries.space) entries' rest := by
  cases order with
  | set key flags expiry block noreply =>
    refine ⟨entries.insert key.text ⟨flags, block.data⟩, entries.space_insert .., ?_⟩
    exact execute_set false entries key.text flags noreply block.fits 0x0D 0x0A rest
  | get long keys =>
    refine ⟨entries, rfl, ?_⟩
    simp only [command, execute, tail, reply, List.flatMap_map, valueReply_eq_found]
    rfl
  | delete key =>
    refine ⟨entries.erase key.text, entries.space_erase key.text, ?_⟩
    exact congrArg (fun text ↦ Turn.next text (entries.erase key.text) rest)
      (apply_ite line ((entries.get? key.text).isSome = true) "DELETED" "NOT_FOUND")
  | version => exact ⟨entries, rfl, rfl⟩
  | flush => exact ⟨.empty, rfl, rfl⟩
  | quit => cases hquit

/-- The bytes of an order are one turn, which leaves what follows them. -/
theorem turn_bytes (entries : Entries) {order : Order} (hquit : order.isQuit = false)
    (rest : List UInt8) :
    ∃ entries', entries'.space = order.apply entries.space ∧
      turn false entries (order.bytes ++ rest) =
        .next (order.reply entries.space) entries' rest := by
  rw [bytes, List.append_assoc, turn_line, ofWords_tokens]
  exact execute_command entries hquit rest

theorem turn_bytes_quit (entries : Entries) {order : Order} (hquit : order.isQuit = true)
    (rest : List UInt8) : turn false entries (order.bytes ++ rest) = .last .quit := by
  rw [bytes, List.append_assoc, turn_line, ofWords_tokens]
  cases order with
  | quit => rfl
  | _ => cases hquit

theorem speaks : protocol.Speaks (turn false) where
  next entries _order hquit rest := turn_bytes entries hquit rest
  quit entries _order hquit rest := turn_bytes_quit entries hquit rest
  closed _entries := rfl

end Order

/-! ### Connections -/

/-- A connection that is sent orders is a conversation with the key space: each order before the
first to quit gets the reply that the space calls for, and the space is where they take it. -/
theorem serve_orders (entries : Entries) (orders : List Order) :
    Order.protocol.Conversation entries orders
      (serve false entries (orders.flatMap Order.bytes)) :=
  Order.speaks.conversation (turn_shorter false) entries orders

end CacheCheck.Memcached.TextWire
