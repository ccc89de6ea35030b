import CacheCheck.Proofs.Memcached.Access

/-!
Ways to reach an endpoint. A transport takes requests to an endpoint and brings back what is sent in
reply (`Transport`). It delivers a wire when a demand on that wire comes back with the reply that
the key space calls for, and takes the space where its access says (`Transport.Delivers`).

There are two. Each request can have a connection of its own (`Transport.apart`), or all share one
that stays open (`Transport.together`), where the reply to a request is what is sent beyond the
replies to those before. Both deliver either wire, since demands that are sent one behind the other
are served one after the other (`Wire.serve_input`).
-/

set_option autoImplicit false

namespace CacheCheck.Memcached

/-! ### Demands on one connection -/

/-- The space after demands were carried out. -/
def KeySpace.after (space : KeySpace) (demands : List Demand) : KeySpace :=
  demands.foldl (fun space demand ↦ demand.access.apply space) space

namespace Wire

/-- The replies to demands, each in the space that those before it made. -/
def replies (wire : Wire) : KeySpace → List Demand → List UInt8
  | _, [] => []
  | space, demand :: rest =>
    wire.reply space demand ++ wire.replies (demand.access.apply space) rest

theorem replies_append (wire : Wire) (space : KeySpace) (first second : List Demand) :
    wire.replies space (first ++ second) =
      wire.replies space first ++ wire.replies (space.after first) second := by
  induction first generalizing space with
  | nil => rfl
  | cons demand rest ih =>
    rw [List.cons_append, replies, ih, replies, List.append_assoc]
    rfl

theorem input_append (wire : Wire) (first second : List Demand) :
    wire.input (first ++ second) = wire.input first ++ wire.input second :=
  List.flatMap_append

theorem input_singleton (wire : Wire) (demand : Demand) : wire.input [demand] = wire.bytes demand :=
  List.flatMap_singleton ..

theorem takeTurns_input (wire : Wire) (entries : Entries) (demands : List Demand) :
    ∃ entries', entries'.space = entries.space.after demands ∧
      takeTurns (wire.turn false) wire.turn_shorter entries (wire.input demands) =
        ⟨wire.replies entries.space demands, entries', .closed⟩ := by
  induction demands generalizing entries with
  | nil =>
    have hclosed : wire.turn false entries [] = .last .closed := by
      cases wire <;> rfl
    exact ⟨entries, rfl, takeTurns_last hclosed⟩
  | cons demand rest ih =>
    obtain ⟨next, hnext, hturn⟩ := wire.turn_bytes entries demand (wire.input rest)
    obtain ⟨entries', hspace, hserve⟩ := ih next
    refine ⟨entries', by rw [hspace, hnext]; rfl, ?_⟩
    rw [input, List.flatMap_cons, ← input, takeTurns_next hturn, hserve, hnext]
    rfl

/-- Demands that are sent one behind the other are served one after the other. -/
theorem serve_input (wire : Wire) (entries : Entries) (demands : List Demand) :
    ∃ entries', entries'.space = entries.space.after demands ∧
      Memcached.serve false entries (wire.input demands) =
        ⟨wire.replies entries.space demands, entries', .closed⟩ := by
  cases demands with
  | nil => exact Wire.ascii.takeTurns_input entries []
  | cons demand rest =>
    rw [Memcached.serve, wire.ofInput_input (List.cons_ne_nil demand rest), serve_eq]
    exact wire.takeTurns_input entries (demand :: rest)

end Wire

/-! ### Transports -/

/-- A way to take requests to an endpoint, whatever the type of its states. -/
structure Transport (σ : Type) where
  exchange : List UInt8 → σ → List UInt8 × σ
  /-- What the endpoint has. -/
  entries : σ → Entries

namespace Transport

variable {σ : Type}

/-- Demands on a wire are replied to and carried out, in states that keep a space. -/
structure Delivers (transport : Transport σ) (wire : Wire) (keeps : σ → KeySpace → Prop) :
    Prop where
  space_eq {state : σ} {space : KeySpace} :
    keeps state space → (transport.entries state).space = space
  exchange_eq {state : σ} {space : KeySpace} (demand : Demand) : keeps state space →
    ∃ next, transport.exchange (wire.bytes demand) state = (wire.reply space demand, next) ∧
      keeps next (demand.access.apply space)

/-- A connection for each request. -/
def apart : Transport Endpoint where
  exchange request endpoint :=
    let (served, endpoint) := endpoint.exchange request
    (served.reply, endpoint)
  entries := Endpoint.entries

/-- An endpoint that has this space, and answers reads. -/
structure ApartKeeps (endpoint : Endpoint) (space : KeySpace) : Prop where
  stalled_eq : endpoint.stalled = false
  space_eq : endpoint.entries.space = space

theorem apart_delivers (wire : Wire) : apart.Delivers wire ApartKeeps where
  space_eq h := h.space_eq
  exchange_eq {endpoint space} demand h := by
    obtain ⟨entries', hspace, hserve⟩ := wire.serve_input endpoint.entries [demand]
    rw [wire.input_singleton, ← h.stalled_eq] at hserve
    have hreply : wire.replies endpoint.entries.space [demand] = wire.reply space demand := by
      rw [h.space_eq, Wire.replies, Wire.replies, List.append_nil]
    refine ⟨{ endpoint with entries := entries' }, ?_, h.stalled_eq, ?_⟩
    · simp only [apart, Endpoint.exchange, hserve, hreply]
    · rw [hspace, h.space_eq]
      rfl

/-- A connection that stays open: the endpoint when it was opened, and what was sent since. -/
structure Connection where
  opened : Endpoint
  sent : List UInt8 := []

/-- What serving a connection has come to so far. -/
def Connection.served (connection : Connection) : Served :=
  serve connection.opened.stalled connection.opened.entries connection.sent

/-- One connection for all requests. What is sent back beyond the replies so far is the reply. -/
def together : Transport Connection where
  exchange request connection :=
    let next := { connection with sent := connection.sent ++ request }
    (next.served.reply.drop connection.served.reply.length, next)
  entries connection := connection.served.entries

/-- A connection on which demands were sent that made this space. -/
structure TogetherKeeps (wire : Wire) (connection : Connection) (space : KeySpace) : Prop where
  stalled_eq : connection.opened.stalled = false
  demands : ∃ demands, connection.sent = wire.input demands ∧
    connection.opened.entries.space.after demands = space

theorem together_delivers (wire : Wire) : together.Delivers wire (TogetherKeeps wire) where
  space_eq {connection space} h := by
    obtain ⟨demands, hsent, hspace⟩ := h.demands
    obtain ⟨entries', hentries, hserve⟩ := wire.serve_input connection.opened.entries demands
    change (serve connection.opened.stalled connection.opened.entries
      connection.sent).entries.space = space
    rw [h.stalled_eq, hsent, hserve, ← hspace]
    exact hentries
  exchange_eq {connection space} demand h := by
    obtain ⟨demands, hsent, hspace⟩ := h.demands
    have hnext : wire.input demands ++ wire.bytes demand = wire.input (demands ++ [demand]) := by
      rw [wire.input_append, wire.input_singleton]
    obtain ⟨_, -, hbefore⟩ := wire.serve_input connection.opened.entries demands
    obtain ⟨_, -, hafter⟩ := wire.serve_input connection.opened.entries (demands ++ [demand])
    refine ⟨{ connection with sent := connection.sent ++ wire.bytes demand }, Prod.ext ?_ rfl,
      h.stalled_eq, demands ++ [demand], by rw [hsent, hnext], ?_⟩
    · simp only [together, Connection.served, h.stalled_eq, hsent, hnext, hbefore, hafter,
        wire.replies_append, hspace, List.drop_left]
      rw [Wire.replies, Wire.replies, List.append_nil]
    · rw [← hspace, KeySpace.after, List.foldl_append]
      rfl

end Transport

end CacheCheck.Memcached
