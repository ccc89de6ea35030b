/-!
Text as bytes and back. A byte sequence is cut into the longest pieces that could still begin a
character; a piece that is a character decodes, any other piece is one fault. Strict reading
refuses a fault, lenient reading puts the replacement character in its place.
-/

set_option autoImplicit false

namespace CacheCheck.Utf8

/-- The bytes of a text, each character in its shortest form. -/
def encode (s : String) : List UInt8 :=
  s.toList.flatMap String.utf8EncodeChar

@[simp] theorem encode_empty : encode "" = [] := rfl

@[simp] theorem encode_append (s t : String) : encode (s ++ t) = encode s ++ encode t := by
  simp [encode, String.toList_append]

/-- What a lead byte announces: how many bytes follow, the bits it carries itself, and the range
the next byte must lie in. The range keeps out overlong forms, surrogates and values past the
last character. -/
structure Lead where
  more : Nat
  bits : Nat
  low : Nat
  high : Nat

/-- The announcement of a lead byte; `none` for a byte that cannot begin a character. -/
def lead? (b : Nat) : Option Lead :=
  if b < 0x80 then some ⟨0, b, 0x80, 0xBF⟩
  else if b < 0xC2 then none
  else if b < 0xE0 then some ⟨1, b - 0xC0, 0x80, 0xBF⟩
  else if b = 0xE0 then some ⟨2, 0, 0xA0, 0xBF⟩
  else if b = 0xED then some ⟨2, 0xD, 0x80, 0x9F⟩
  else if b < 0xF0 then some ⟨2, b - 0xE0, 0x80, 0xBF⟩
  else if b = 0xF0 then some ⟨3, 0, 0x90, 0xBF⟩
  else if b < 0xF4 then some ⟨3, b - 0xF0, 0x80, 0xBF⟩
  else if b = 0xF4 then some ⟨3, 4, 0x80, 0x8F⟩
  else none

/-- Reads `more` further bytes, the first of them within `low` to `high`. A byte out of range is
left unread, so that the fault ends before it. -/
def follow : Nat → Nat → Nat → Nat → List UInt8 → Option Char × List UInt8
  | 0, _, _, bits, rest => (some (Char.ofNat bits), rest)
  | _ + 1, _, _, _, [] => (none, [])
  | more + 1, low, high, bits, b :: rest =>
    if low ≤ b.toNat ∧ b.toNat ≤ high then
      follow more 0x80 0xBF (bits * 64 + b.toNat % 64) rest
    else (none, b :: rest)

theorem length_follow_le (more low high bits : Nat) (bytes : List UInt8) :
    (follow more low high bits bytes).2.length ≤ bytes.length := by
  induction more generalizing low high bits bytes with
  | zero => simp [follow]
  | succ more ih =>
    cases bytes with
    | nil => simp [follow]
    | cons b rest =>
      rw [follow]
      split
      · exact Nat.le_succ_of_le (ih _ _ _ rest)
      · exact Nat.le_refl _

/-- The first character or fault of a sequence, with what is left. -/
def next (b : UInt8) (rest : List UInt8) : Option Char × List UInt8 :=
  match lead? b.toNat with
  | none => (none, rest)
  | some lead => follow lead.more lead.low lead.high lead.bits rest

theorem length_next_le (b : UInt8) (rest : List UInt8) :
    (next b rest).2.length ≤ rest.length := by
  unfold next
  split
  · exact Nat.le_refl _
  · exact length_follow_le ..

/-- Every character of a sequence in order, each fault as `none`. -/
def pieces : List UInt8 → List (Option Char)
  | [] => []
  | b :: rest => (next b rest).1 :: pieces (next b rest).2
  termination_by bytes => bytes.length
  decreasing_by exact Nat.lt_succ_of_le (length_next_le b rest)

/-- Strict reading: the text, or `none` when any piece is a fault. -/
def decode? (bytes : List UInt8) : Option String :=
  ((pieces bytes).mapM id).map String.ofList

/-- The character that stands for a fault. -/
def replacement : Char := '\uFFFD'

/-- Lenient reading: every fault becomes the replacement character. -/
def decodeLossy (bytes : List UInt8) : String :=
  String.ofList ((pieces bytes).map (·.getD replacement))

end CacheCheck.Utf8
