import CacheCheck.Memcached.Entries

/-!
What an endpoint keeps, seen as a map, and connections as conversations with it. A key space says
what is under each key and nothing else: not in which order entries were stored, nor how they are
kept. A protocol says how requests are written, what each does to the key space and is answered
with, and which of them end a connection. A server speaks it when every request is one turn,
whatever follows it on the connection (`Protocol.Speaks`).

A connection to such a server, sent requests one behind the other, is then a conversation with the
key space itself, up to the first request that quits (`Speaks.conversation`). Nothing is assumed of
what requests look like: that one cannot be taken for another is part of each being one turn.
-/

set_option autoImplicit false

namespace CacheCheck.Memcached

/-! ### Key spaces -/

/-- What is under each key. -/
abbrev KeySpace : Type := String → Option Entry

namespace KeySpace

def empty : KeySpace := fun _ ↦ none

/-- The space after an entry was put under a key, in place of the one that was there. -/
def put (space : KeySpace) (key : String) (entry : Entry) : KeySpace := fun other ↦
  if other = key then some entry else space other

def remove (space : KeySpace) (key : String) : KeySpace := fun other ↦
  if other = key then none else space other

end KeySpace

namespace Entries

/-- The space that entries make. -/
def space (entries : Entries) : KeySpace := entries.get?

@[simp] theorem space_empty : space .empty = KeySpace.empty := rfl

@[simp] theorem space_insert (entries : Entries) (key : String) (entry : Entry) :
    space (entries.insert key entry) = entries.space.put key entry := by
  funext other
  exact Store.get?_insert entries key other entry

@[simp] theorem space_erase (entries : Entries) (key : String) :
    space (entries.erase key) = entries.space.remove key := by
  funext other
  exact Store.get?_erase entries key other

end Entries

/-! ### Protocols -/

/-- Requests, how they are written, and what they mean for a key space. -/
structure Protocol (ρ α : Type) where
  bytes : ρ → List UInt8
  apply : KeySpace → ρ → KeySpace
  answer : KeySpace → ρ → α
  /-- An answer as it is sent. -/
  send : α → List UInt8
  isQuit : ρ → Bool

namespace Protocol

variable {ρ α : Type} (protocol : Protocol ρ α)

/-- The requests before the first that quits. -/
def heard (requests : List ρ) : List ρ :=
  requests.takeWhile fun request ↦ !protocol.isQuit request

/-- What requests are answered with, each in the space that those before it made. -/
def answers : KeySpace → List ρ → List α
  | _, [] => []
  | space, request :: rest =>
    protocol.answer space request :: answers (protocol.apply space request) rest

/-- The space that requests make. -/
def after (space : KeySpace) (requests : List ρ) : KeySpace :=
  requests.foldl protocol.apply space

/-- Every request is one turn of a server, which leaves what follows it. -/
structure Speaks (turn : Entries → List UInt8 → Turn) : Prop where
  next (entries : Entries) {request : ρ} (hquit : protocol.isQuit request = false)
    (rest : List UInt8) :
    ∃ entries', entries'.space = protocol.apply entries.space request ∧
      turn entries (protocol.bytes request ++ rest) =
        .next (protocol.send (protocol.answer entries.space request)) entries' rest
  quit (entries : Entries) {request : ρ} (hquit : protocol.isQuit request = true)
    (rest : List UInt8) : turn entries (protocol.bytes request ++ rest) = .last .quit
  closed (entries : Entries) : turn entries [] = .last .closed

/-- What a connection that is sent requests comes to. -/
structure Conversation (entries : Entries) (requests : List ρ) (served : Served) : Prop where
  /-- Each request before the first quit is answered, in order, and nothing else is sent. -/
  reply_eq : served.reply =
    (protocol.answers entries.space (protocol.heard requests)).flatMap protocol.send
  /-- The entries are those that the requests before the first quit make. -/
  space_eq : served.entries.space = protocol.after entries.space (protocol.heard requests)
  ending_eq : served.ending = if requests.any protocol.isQuit then .quit else .closed

theorem heard_cons_of_quit {request : ρ} (hquit : protocol.isQuit request = true)
    (rest : List ρ) : protocol.heard (request :: rest) = [] := by
  rw [heard, List.takeWhile_cons, hquit]
  rfl

theorem heard_cons_of_next {request : ρ} (hquit : protocol.isQuit request = false)
    (rest : List ρ) : protocol.heard (request :: rest) = request :: protocol.heard rest := by
  rw [heard, List.takeWhile_cons, hquit]
  rfl

variable {protocol}

theorem Conversation.of_quit {entries : Entries} {request : ρ}
    (hquit : protocol.isQuit request = true) (rest : List ρ) :
    protocol.Conversation entries (request :: rest) ⟨[], entries, .quit⟩ where
  reply_eq := by
    rw [protocol.heard_cons_of_quit hquit]
    rfl
  space_eq := by
    rw [protocol.heard_cons_of_quit hquit]
    rfl
  ending_eq := by
    rw [List.any_cons, hquit]
    rfl

/-- A request goes in front of the conversation that follows it. -/
theorem Conversation.cons {entries entries' : Entries} {request : ρ} {rest : List ρ}
    {served : Served} (hquit : protocol.isQuit request = false)
    (hspace : entries'.space = protocol.apply entries.space request)
    (h : protocol.Conversation entries' rest served) :
    protocol.Conversation entries (request :: rest)
      (served.after (protocol.send (protocol.answer entries.space request))) where
  reply_eq := by
    rw [protocol.heard_cons_of_next hquit, answers, List.flatMap_cons, ← hspace, ← h.reply_eq]
    rfl
  space_eq := by
    rw [protocol.heard_cons_of_next hquit, after, List.foldl_cons, ← hspace, ← after,
      ← h.space_eq]
    rfl
  ending_eq := by
    rw [List.any_cons, hquit, Bool.false_or, ← h.ending_eq]
    rfl

/-- A connection to a server that speaks a protocol is a conversation with its key space. -/
theorem Speaks.conversation {turn : Entries → List UInt8 → Turn} (hspeaks : protocol.Speaks turn)
    (shorter : ∀ entries input reply entries' rest,
      turn entries input = .next reply entries' rest → rest.length < input.length)
    (entries : Entries) (requests : List ρ) :
    protocol.Conversation entries requests
      (takeTurns turn shorter entries (requests.flatMap protocol.bytes)) := by
  induction requests generalizing entries with
  | nil =>
    rw [List.flatMap_nil, takeTurns_last (hspeaks.closed entries)]
    exact ⟨rfl, rfl, rfl⟩
  | cons request rest ih =>
    rw [List.flatMap_cons]
    by_cases hquit : protocol.isQuit request = true
    · rw [takeTurns_last (hspeaks.quit entries hquit _)]
      exact .of_quit hquit rest
    · have hnext : protocol.isQuit request = false := Bool.eq_false_iff.mpr hquit
      obtain ⟨entries', hspace, hturn⟩ :=
        hspeaks.next entries hnext (rest.flatMap protocol.bytes)
      rw [takeTurns_next hturn]
      exact (ih entries').cons hnext hspace

/-- A property of answers holds of all of them, where an invariant of the space that requests keep
gives it for each. -/
theorem forall_answers {invariant : KeySpace → Prop} {property : α → Prop} {requests : List ρ}
    (happly : ∀ request ∈ requests, ∀ space, invariant space →
      invariant (protocol.apply space request))
    (hanswer : ∀ request ∈ requests, ∀ space, invariant space →
      property (protocol.answer space request))
    {space : KeySpace} (hspace : invariant space) :
    ∀ answer ∈ protocol.answers space requests, property answer := by
  induction requests generalizing space with
  | nil =>
    intro answer hmem
    cases hmem
  | cons request rest ih =>
    intro answer hmem
    rcases List.mem_cons.mp hmem with rfl | hrest
    · exact hanswer request List.mem_cons_self space hspace
    · exact ih (fun other hother ↦ happly other (List.mem_cons_of_mem request hother))
        (fun other hother ↦ hanswer other (List.mem_cons_of_mem request hother))
        (happly request List.mem_cons_self space hspace) answer hrest

end Protocol

end CacheCheck.Memcached
