import CacheCheck.Store
import CacheCheck.Text.Utf8

/-!
What a memcached endpoint keeps, and how serving a connection ends. The endpoint answers the part
of the protocols that checks use; it never expires an entry and never runs out of room.
-/

set_option autoImplicit false

namespace CacheCheck.Memcached

/-- A value with the number a client stored beside it. -/
structure Entry where
  flags : UInt32
  data : List UInt8
  deriving DecidableEq, Repr

/-- The entries of an endpoint, shared by its connections. -/
abbrev Entries := Store Entry

namespace Entries

/-- Stores a text as if a client had written it. -/
def put (entries : Entries) (key value : String) : Entries :=
  entries.insert key ⟨0, Utf8.encode value⟩

/-- The text under a key. -/
def value? (entries : Entries) (key : String) : Option String :=
  (entries.get? key).map fun entry ↦ Utf8.decodeLossy entry.data

end Entries

/-- The version the endpoint calls itself. -/
def versionName : String := "1.6.0-fake"

/-- What breaks a connection. -/
inductive Breakdown
  /-- A line that is no text. -/
  | notText
  /-- The input ended inside a block. -/
  | cutShort
  /-- A block whose length, with its two further bytes, is no number of 64 bits. -/
  | overflow
  /-- A block longer than any memory. -/
  | tooLong
  | badMark
  /-- A frame whose parts are longer than the frame. -/
  | shortBody
  deriving DecidableEq, Repr

/-- Why no further command of a connection is served. -/
inductive Ending
  /-- The input was used up. -/
  | closed
  /-- The client asked to end. -/
  | quit
  /-- A read came while reads are stalled. -/
  | stalled
  | broken (cause : Breakdown)
  deriving DecidableEq, Repr

/-- What one command of a connection comes to. -/
inductive Turn
  /-- It was answered; the input goes on. -/
  | next (reply : List UInt8) (entries : Entries) (rest : List UInt8)
  /-- It was the last. -/
  | last (ending : Ending)

/-- What serving a connection comes to: everything sent, the entries afterwards, and the end. -/
structure Served where
  reply : List UInt8
  entries : Entries
  ending : Ending

/-- The same, with a reply that was sent before. -/
def Served.after (reply : List UInt8) (served : Served) : Served :=
  { served with reply := reply ++ served.reply }

/-- Takes turns until the last. Every turn but the last must shorten the input. -/
def takeTurns (turn : Entries → List UInt8 → Turn)
    (shorter : ∀ entries input reply entries' rest,
      turn entries input = .next reply entries' rest → rest.length < input.length)
    (entries : Entries) (input : List UInt8) : Served :=
  match _h : turn entries input with
  | .next reply entries' rest => (takeTurns turn shorter entries' rest).after reply
  | .last ending => ⟨[], entries, ending⟩
  termination_by input.length
  decreasing_by exact shorter _ _ _ _ _ _h

theorem takeTurns_next {turn : Entries → List UInt8 → Turn}
    {shorter : ∀ entries input reply entries' rest,
      turn entries input = .next reply entries' rest → rest.length < input.length}
    {entries entries' : Entries} {input reply rest : List UInt8}
    (h : turn entries input = .next reply entries' rest) :
    takeTurns turn shorter entries input = (takeTurns turn shorter entries' rest).after reply := by
  rw [takeTurns]
  split
  · next heq =>
    rw [h] at heq
    cases heq
    rfl
  · next heq =>
    rw [h] at heq
    cases heq

theorem takeTurns_last {turn : Entries → List UInt8 → Turn}
    {shorter : ∀ entries input reply entries' rest,
      turn entries input = .next reply entries' rest → rest.length < input.length}
    {entries : Entries} {input : List UInt8} {ending : Ending}
    (h : turn entries input = .last ending) :
    takeTurns turn shorter entries input = ⟨[], entries, ending⟩ := by
  rw [takeTurns]
  split
  · next heq =>
    rw [h] at heq
    cases heq
  · next heq =>
    rw [h] at heq
    cases heq
    rfl

end CacheCheck.Memcached
