import Mathlib.Logic.Function.Basic
import CacheCheck.Proofs.Memcached.Access

/-!
Many connections to one endpoint. What can happen next is that a connection takes its next turn, or
that a text is put in from outside; a run is any number of such moves, in any order (`Hub.run`). A
connection that is alone takes its turns as it would be served (`Hub.run_turns`).

Connections that were sent demands, each on a wire of its own, do in a run what the moves say and
the wires do not: the history of a run is read off the demands and the order of the moves. One move
adds at most one deed to it, and the simulation of a move (`Hub.Awaits.step`) makes that of a run
(`Hub.Awaits.run`). So the wires can be exchanged: the entries and every answer are those of one key
space, where each key has what the last deed that affects it left (`run_oneSpace`).
-/

set_option autoImplicit false

namespace CacheCheck.Memcached

/-! ### What is done to the key space -/

/-- Something done to the key space: a demand that was carried out, or a text put in. -/
inductive Deed (ι : Type)
  | carry (connection : ι) (demand : Demand)
  | put (key value : String) (fits : (Utf8.encode value).length ≤ longestValue)

section

variable {ι : Type}

namespace Deed

def apply (space : KeySpace) : Deed ι → KeySpace
  | carry _ demand => demand.access.apply space
  | put key value _ => space.put key ⟨0, Utf8.encode value⟩

/-- What a deed leaves under a key, if it affects the key. -/
def effect? (key : String) : Deed ι → Option (Option Entry)
  | carry _ demand =>
    match demand.access with
    | .set other flags data _ => if key = other.text then some (some ⟨flags, data⟩) else none
    | .get _ => none
    | .delete other => if key = other.text then some none else none
    | .flush => some none
  | put other value _ => if key = other then some (some ⟨0, Utf8.encode value⟩) else none

theorem apply_eq (space : KeySpace) (deed : Deed ι) (key : String) :
    deed.apply space key = (deed.effect? key).getD (space key) := by
  cases deed with
  | put other value fits =>
    by_cases hkey : key = other <;> simp [apply, effect?, KeySpace.put, hkey]
  | carry i demand =>
    rw [apply, effect?]
    cases demand.access with
    | set other flags data fits =>
      by_cases hkey : key = other.text <;> simp [Access.apply, KeySpace.put, hkey]
    | delete other =>
      by_cases hkey : key = other.text <;> simp [Access.apply, KeySpace.remove, hkey]
    | _ => rfl

theorem fits_apply {space : KeySpace} (h : space.Fits) (deed : Deed ι) :
    (deed.apply space).Fits := by
  cases deed with
  | put key value fits => exact KeySpace.fits_put h fits
  | carry i demand => exact Access.fits_apply h demand.access

end Deed

/-- The space that deeds make. -/
def spaceAfter (space : KeySpace) (deeds : List (Deed ι)) : KeySpace :=
  deeds.foldl Deed.apply space

/-- What the last deed that affects it left under each key. -/
def lastEffect (space : KeySpace) (deeds : List (Deed ι)) : KeySpace := fun key ↦
  (deeds.reverse.findSome? fun deed ↦ deed.effect? key).getD (space key)

theorem spaceAfter_eq_lastEffect (space : KeySpace) (deeds : List (Deed ι)) :
    spaceAfter space deeds = lastEffect space deeds := by
  induction deeds generalizing space with
  | nil => rfl
  | cons deed deeds ih =>
    funext key
    rw [spaceAfter, List.foldl_cons, ← spaceAfter, ih, lastEffect, lastEffect, List.reverse_cons,
      List.findSome?_append, deed.apply_eq]
    cases deeds.reverse.findSome? fun deed ↦ deed.effect? key with
    | none => simp
    | some left => rfl

end

/-! ### Endpoints with many connections -/

/-- A connection at its endpoint. -/
structure Link where
  wire : Wire
  /-- What has not been read. -/
  input : List UInt8
  reply : List UInt8
  ending : Option Ending

/-- A connection on which something is sent. -/
def Link.opened (input : List UInt8) : Link := ⟨Wire.ofInput input, input, [], none⟩

/-- An endpoint, with its connections. -/
structure Hub (ι : Type) where
  entries : Entries
  link : ι → Link

/-- What can happen next. -/
inductive Move (ι : Type)
  | turn (connection : ι)
  /-- A text is put in from outside. -/
  | put (key value : String) (fits : (Utf8.encode value).length ≤ longestValue)

section

variable {ι : Type} [DecidableEq ι]

namespace Hub

/-- A connection takes its next turn; nothing happens when it has ended. -/
def takeTurn (hub : Hub ι) (i : ι) : Hub ι :=
  let link := hub.link i
  if link.ending.isSome then hub
  else
    match link.wire.turn false hub.entries link.input with
    | .next reply entries rest =>
      { entries
        link := Function.update hub.link i
          { link with input := rest, reply := link.reply ++ reply } }
    | .last ending =>
      { hub with link := Function.update hub.link i { link with ending := some ending } }

def step (hub : Hub ι) : Move ι → Hub ι
  | .turn i => hub.takeTurn i
  | .put key value _ => { hub with entries := hub.entries.put key value }

/-- What moves come to, one after the other. -/
def run (hub : Hub ι) (moves : List (Move ι)) : Hub ι :=
  moves.foldl step hub

theorem takeTurn_of_ended {hub : Hub ι} {i : ι} {ending : Ending}
    (h : (hub.link i).ending = some ending) : hub.takeTurn i = hub := by
  rw [takeTurn, h]
  rfl

theorem takeTurn_next {hub : Hub ι} {i : ι} {reply rest : List UInt8} {entries : Entries}
    (hopen : (hub.link i).ending = none)
    (h : (hub.link i).wire.turn false hub.entries (hub.link i).input = .next reply entries rest) :
    hub.takeTurn i =
      { entries
        link := Function.update hub.link i
          { hub.link i with input := rest, reply := (hub.link i).reply ++ reply } } := by
  simp only [takeTurn, hopen, h]
  rfl

theorem takeTurn_last {hub : Hub ι} {i : ι} {ending : Ending}
    (hopen : (hub.link i).ending = none)
    (h : (hub.link i).wire.turn false hub.entries (hub.link i).input = .last ending) :
    hub.takeTurn i =
      { hub with
        link := Function.update hub.link i { hub.link i with ending := some ending } } := by
  simp only [takeTurn, hopen, h]
  rfl

theorem run_turns_of_ended {hub : Hub ι} {i : ι} {ending : Ending}
    (h : (hub.link i).ending = some ending) (count : Nat) :
    hub.run (List.replicate count (.turn i)) = hub := by
  induction count with
  | zero => rfl
  | succ count ih =>
    rw [List.replicate_succ, run, List.foldl_cons, step, takeTurn_of_ended h]
    exact ih

end Hub

/-- A connection that takes all its turns in a row is served as it would be alone, and no other
connection notices. -/
theorem Hub.run_turns {hub : Hub ι} {i : ι} (hopen : (hub.link i).ending = none) {count : Nat}
    (hcount : (hub.link i).input.length < count) :
    let served := (hub.link i).wire.serve false hub.entries (hub.link i).input
    let after := hub.run (List.replicate count (.turn i))
    after.entries = served.entries ∧
      (after.link i).reply = (hub.link i).reply ++ served.reply ∧
      (after.link i).ending = some served.ending ∧
      ∀ j, j ≠ i → after.link j = hub.link j := by
  induction count generalizing hub with
  | zero => exact absurd hcount (Nat.not_lt_zero _)
  | succ count ih =>
    simp only [List.replicate_succ, run, List.foldl_cons, step, Wire.serve_eq] at ih ⊢
    cases hturn : (hub.link i).wire.turn false hub.entries (hub.link i).input with
    | last ending =>
      have hended := takeTurn_last hopen hturn
      have hrun := @run_turns_of_ended ι _ (hub.takeTurn i) i ending (by simp [hended]) count
      rw [run] at hrun
      rw [hrun, hended, takeTurns_last hturn]
      exact ⟨rfl, by simp, by simp, fun j hj ↦ Function.update_of_ne hj _ _⟩
    | next reply entries rest =>
      have hshorter := Wire.turn_shorter _ _ _ _ _ _ hturn
      have hnext := takeTurn_next hopen hturn
      obtain ⟨hentries, hreply, hending, hothers⟩ := @ih (hub.takeTurn i)
        (by simpa [hnext] using hopen) (by simp [hnext]; omega)
      rw [hnext] at hentries hreply hending hothers ⊢
      simp only [Function.update_self] at hentries hreply hending
      rw [takeTurns_next hturn]
      refine ⟨hentries, ?_, hending, fun j hj ↦ ?_⟩
      · rw [hreply, List.append_assoc]
        rfl
      · exact (hothers j hj).trans (Function.update_of_ne hj _ _)

/-! ### The history of a run -/

namespace Move

variable (demands : ι → List Demand)

/-- What a move does while connections are yet to be served these demands. -/
def deed? : Move ι → Option (Deed ι)
  | turn i => (demands i).head?.map (.carry i)
  | put key value fits => some (.put key value fits)

/-- The demands that are left after a move. -/
def left : Move ι → ι → List Demand
  | turn i => Function.update demands i (demands i).tail
  | put .. => demands

def isTurnOf (i : ι) : Move ι → Bool
  | turn j => j = i
  | put .. => false

end Move

/-- The demand of a connection that a deed carried out. -/
def Deed.demandOf? (i : ι) : Deed ι → Option Demand
  | .carry j demand => if j = i then some demand else none
  | .put .. => none

/-- What is done in a run, in order. -/
def history (demands : ι → List Demand) : List (Move ι) → List (Deed ι)
  | [] => []
  | move :: moves => (move.deed? demands).toList ++ history (move.left demands) moves

/-- The demands of a connection among deeds. -/
def asked (i : ι) (deeds : List (Deed ι)) : List Demand :=
  deeds.filterMap (Deed.demandOf? i)

/-- What a connection is told, each time by the space that all deeds before made. -/
def told (i : ι) : KeySpace → List (Deed ι) → List Access.Answer
  | _, [] => []
  | space, deed :: deeds =>
    ((deed.demandOf? i).map fun demand ↦ demand.access.answer space).toList ++
      told i (deed.apply space) deeds

/-- What a connection is sent on its wire. -/
def sent (wire : Wire) (i : ι) : KeySpace → List (Deed ι) → List UInt8
  | _, [] => []
  | space, deed :: deeds =>
    ((deed.demandOf? i).map (wire.reply space)).getD [] ++ sent wire i (deed.apply space) deeds

theorem sent_append (wire : Wire) (i : ι) (space : KeySpace) (first second : List (Deed ι)) :
    sent wire i space (first ++ second) =
      sent wire i space first ++ sent wire i (spaceAfter space first) second := by
  induction first generalizing space with
  | nil => rfl
  | cons deed deeds ih =>
    rw [List.cons_append, sent, sent, ih, List.append_assoc]
    rfl

theorem told_append (i : ι) (space : KeySpace) (first second : List (Deed ι)) :
    told i space (first ++ second) =
      told i space first ++ told i (spaceAfter space first) second := by
  induction first generalizing space with
  | nil => rfl
  | cons deed deeds ih =>
    rw [List.cons_append, told, told, ih, List.append_assoc]
    rfl

theorem length_told (i : ι) (space : KeySpace) (deeds : List (Deed ι)) :
    (told i space deeds).length = (asked i deeds).length := by
  induction deeds generalizing space with
  | nil => rfl
  | cons deed deeds ih =>
    rw [told, List.length_append, ih, asked, asked, List.filterMap_cons]
    cases deed.demandOf? i with
    | none => simp
    | some demand => simp [Nat.add_comm]

/-- What is sent is read back as what is told, whichever wire it is sent on. -/
theorem readAnswers_sent (wire : Wire) (i : ι) {space : KeySpace} (h : space.Fits)
    (deeds : List (Deed ι)) :
    wire.readAnswers (asked i deeds) (sent wire i space deeds) = some (told i space deeds) := by
  induction deeds generalizing space with
  | nil => rfl
  | cons deed deeds ih =>
    have hrest := ih (deed.fits_apply h)
    rw [told, sent, asked, List.filterMap_cons]
    cases deed.demandOf? i with
    | none => exact hrest
    | some demand =>
      rw [← asked]
      simp only [Option.map_some, Option.getD_some, Wire.readAnswers,
        wire.readAnswer_reply demand h, Option.bind_eq_bind, Option.bind_some, hrest]
      rfl

/-- Each turn of a connection carries its next demand out. -/
theorem asked_history (demands : ι → List Demand) (moves : List (Move ι)) (i : ι) :
    asked i (history demands moves) = (demands i).take (moves.countP (Move.isTurnOf i)) := by
  induction moves generalizing demands with
  | nil => rfl
  | cons move moves ih =>
    rw [history, asked, List.filterMap_append, ← asked, ← asked, ih, List.countP_cons]
    cases move with
    | put key value fits =>
      simp [asked, Move.deed?, Move.left, Move.isTurnOf, Deed.demandOf?]
    | turn j =>
      by_cases hj : j = i
      · subst hj
        cases hdemands : demands j <;>
          simp [asked, Move.deed?, Move.left, Move.isTurnOf, Deed.demandOf?, hdemands]
      · have hi : i ≠ j := fun heq ↦ hj heq.symm
        cases hdemands : demands j <;>
          simp [asked, Move.deed?, Move.left, Move.isTurnOf, Deed.demandOf?, hdemands, hj, hi]

/-! ### Runs follow their history -/

/-- A connection that is yet to be served demands on a wire. -/
structure Link.Awaits (wire : Wire) (demands : List Demand) (link : Link) : Prop where
  input_eq : link.input = wire.input demands
  wire_eq : demands ≠ [] → link.wire = wire
  /-- It ends when there is nothing left, and plainly. -/
  ending_eq : link.ending = none ∨ demands = [] ∧ link.ending = some .closed

theorem Link.awaits_opened (wire : Wire) (demands : List Demand) :
    (Link.opened (wire.input demands)).Awaits wire demands where
  input_eq := rfl
  wire_eq := wire.ofInput_input
  ending_eq := .inl rfl

theorem Wire.turn_nil (wire : Wire) (entries : Entries) :
    wire.turn false entries [] = .last .closed :=
  match wire with
  | .binary => rfl
  | .ascii => rfl

namespace Hub

/-- Every connection is yet to be served demands. -/
def Awaits (wire : ι → Wire) (demands : ι → List Demand) (hub : Hub ι) : Prop :=
  ∀ i, (hub.link i).Awaits (wire i) (demands i)

/-- Deeds make one state of an endpoint from another, on these wires. -/
structure Makes (wire : ι → Wire) (deeds : List (Deed ι)) (before after : Hub ι) : Prop where
  space_eq : after.entries.space = spaceAfter before.entries.space deeds
  reply_eq : ∀ i, (after.link i).reply =
    (before.link i).reply ++ sent (wire i) i before.entries.space deeds

variable {wire : ι → Wire} {demands : ι → List Demand}

theorem Makes.refl (hub : Hub ι) : Makes wire [] hub hub where
  space_eq := rfl
  reply_eq _ := (List.append_nil _).symm

theorem Makes.trans {first second : List (Deed ι)} {before between after : Hub ι}
    (h : Makes wire first before between) (h' : Makes wire second between after) :
    Makes wire (first ++ second) before after where
  space_eq := by
    rw [h'.space_eq, h.space_eq]
    exact (List.foldl_append ..).symm
  reply_eq i := by
    rw [h'.reply_eq, h.reply_eq, h.space_eq, sent_append, List.append_assoc]

/-- A connection that is served all its demands takes the plain end of its input for its last
turn. -/
theorem Awaits.takeTurn_nil {hub : Hub ι} (h : hub.Awaits wire demands) {i : ι}
    (hnone : demands i = []) :
    (hub.takeTurn i).Awaits wire demands ∧ Makes wire [] hub (hub.takeTurn i) := by
  rcases (h i).ending_eq with hopen | ⟨-, hended⟩
  · have hinput : (hub.link i).input = [] := by
      rw [(h i).input_eq, hnone]
      rfl
    have hlast := takeTurn_last hopen
      (hinput ▸ (hub.link i).wire.turn_nil hub.entries)
    rw [hlast]
    refine ⟨fun j ↦ ?_, rfl, fun j ↦ ?_⟩
    · by_cases hj : j = i
      · subst hj
        simp only [Function.update_self]
        exact ⟨(h j).input_eq, (h j).wire_eq, .inr ⟨hnone, rfl⟩⟩
      · simpa only [Function.update_of_ne hj] using h j
    · by_cases hj : j = i
      · subst hj
        simp [sent]
      · simp [sent, hj]
  · rw [takeTurn_of_ended hended]
    exact ⟨h, .refl hub⟩

/-- A connection that has a demand left is served it. -/
theorem Awaits.takeTurn_cons {hub : Hub ι} (h : hub.Awaits wire demands) {i : ι} {demand : Demand}
    {rest : List Demand} (hsome : demands i = demand :: rest) :
    (hub.takeTurn i).Awaits wire (Function.update demands i rest) ∧
      Makes wire [.carry i demand] hub (hub.takeTurn i) := by
  have hne : demands i ≠ [] := by
    rw [hsome]
    exact List.cons_ne_nil _ _
  have hopen : (hub.link i).ending = none := (h i).ending_eq.resolve_right fun hend ↦ hne hend.1
  have hwire : (hub.link i).wire = wire i := (h i).wire_eq hne
  obtain ⟨entries, hspace, hturn⟩ :=
    (wire i).turn_bytes hub.entries demand ((wire i).input rest)
  have hinput : (hub.link i).input = (wire i).bytes demand ++ (wire i).input rest := by
    rw [(h i).input_eq, hsome]
    rfl
  rw [← hinput, ← hwire] at hturn
  rw [takeTurn_next hopen hturn]
  refine ⟨fun j ↦ ?_, hspace, fun j ↦ ?_⟩
  · by_cases hj : j = i
    · subst hj
      simp only [Function.update_self]
      exact ⟨hwire ▸ rfl, fun _ ↦ hwire, .inl hopen⟩
    · simpa only [Function.update_of_ne hj] using h j
  · by_cases hj : j = i
    · subst hj
      simp [sent, Deed.demandOf?, hwire]
    · have hi : i ≠ j := fun heq ↦ hj heq.symm
      simp [sent, Deed.demandOf?, hj, hi]

/-- A move does what it says, on whichever wires. -/
theorem Awaits.step {hub : Hub ι} (h : hub.Awaits wire demands) (move : Move ι) :
    (hub.step move).Awaits wire (move.left demands) ∧
      Makes wire (move.deed? demands).toList hub (hub.step move) := by
  cases move with
  | put key value fits =>
    refine ⟨h, ?_, fun i ↦ (List.append_nil _).symm⟩
    exact Entries.space_insert hub.entries key ⟨0, Utf8.encode value⟩
  | turn i =>
    cases hdemands : demands i with
    | nil =>
      have hleft : (Move.turn i).left demands = demands := by
        rw [Move.left, hdemands, List.tail_nil, ← hdemands, Function.update_eq_self]
      rw [hleft, Move.deed?, hdemands]
      exact h.takeTurn_nil hdemands
    | cons demand rest =>
      rw [Move.left, Move.deed?, hdemands]
      exact h.takeTurn_cons hdemands

/-- So do any number of moves. -/
theorem Awaits.run {hub : Hub ι} (h : hub.Awaits wire demands) (moves : List (Move ι)) :
    Makes wire (history demands moves) hub (hub.run moves) := by
  induction moves generalizing hub demands with
  | nil => exact .refl hub
  | cons move moves ih =>
    obtain ⟨hawaits, hmakes⟩ := h.step move
    rw [history, Hub.run, List.foldl_cons]
    exact hmakes.trans (ih hawaits)

end Hub

/-! ### One key space for all wires -/

/-- The state that moves make of an endpoint to whose connections demands were sent. -/
def Hub.final (entries : Entries) (wire : ι → Wire) (demands : ι → List Demand)
    (moves : List (Move ι)) : Hub ι :=
  run ⟨entries, fun i ↦ .opened ((wire i).input (demands i))⟩ moves

/-- The answers that a connection reads, to as many demands as it took turns. -/
def Hub.answers (entries : Entries) (wire : ι → Wire) (demands : ι → List Demand)
    (moves : List (Move ι)) (i : ι) : Option (List Access.Answer) :=
  (wire i).readAnswers ((demands i).take (moves.countP (Move.isTurnOf i)))
    ((final entries wire demands moves).link i).reply

/-- What a run comes to: the same on all wires. -/
structure OneSpace (entries : Entries) (demands : ι → List Demand) (moves : List (Move ι)) :
    Prop where
  /-- A connection is served on the wire that its demands were written for. -/
  wire_eq : ∀ (wire : Wire) (i : ι), demands i ≠ [] →
    Wire.ofInput (wire.input (demands i)) = wire
  /-- Each turn of a connection carries out its next demand. -/
  asked_eq : ∀ i, asked i (history demands moves) =
    (demands i).take (moves.countP (Move.isTurnOf i))
  /-- Under each key is what the last deed that affects it left. -/
  space_eq : ∀ wire, (Hub.final entries wire demands moves).entries.space =
    lastEffect entries.space (history demands moves)
  /-- A connection reads one answer to each demand that was carried out. -/
  answers_eq : ∀ wire i, ∃ answers, Hub.answers entries wire demands moves i = some answers ∧
    answers.length = (asked i (history demands moves)).length
  /-- The answer is given by the last deed before it that affects the key, whoever did that. -/
  answer_eq : ∀ past future i demand, history demands moves = past ++ .carry i demand :: future →
    ∀ {wire answers}, Hub.answers entries wire demands moves i = some answers →
      answers[(asked i past).length]? = some (demand.access.answer (lastEffect entries.space past))
  /-- Other wires for the same demands and the same moves change nothing. -/
  switch : ∀ wire wire',
    (Hub.final entries wire demands moves).entries.space =
        (Hub.final entries wire' demands moves).entries.space ∧
      ∀ i, Hub.answers entries wire demands moves i = Hub.answers entries wire' demands moves i

/-- The answer that a connection is told to a demand, at its place among its answers. -/
theorem getElem?_told (i : ι) (space : KeySpace) (past future : List (Deed ι)) (demand : Demand) :
    (told i space (past ++ .carry i demand :: future))[(asked i past).length]? =
      some (demand.access.answer (lastEffect space past)) := by
  rw [told_append, List.getElem?_append_right (Nat.le_of_eq (length_told i space past)),
    length_told, Nat.sub_self, told, spaceAfter_eq_lastEffect]
  simp [Deed.demandOf?]

/-- Connections to one endpoint share one key space, whichever wires they speak and in whichever
order they are served. Assumes: no value that is there at first is longer than a response can
hold. -/
theorem run_oneSpace (entries : Entries) (demands : ι → List Demand) (moves : List (Move ι))
    (hentries : entries.space.Fits) : OneSpace entries demands moves := by
  have hmakes (wire : ι → Wire) : Hub.Makes wire (history demands moves)
      ⟨entries, fun i ↦ .opened ((wire i).input (demands i))⟩
      (Hub.final entries wire demands moves) :=
    Hub.Awaits.run (fun i ↦ Link.awaits_opened (wire i) (demands i)) moves
  have hspace (wire : ι → Wire) : (Hub.final entries wire demands moves).entries.space =
      lastEffect entries.space (history demands moves) :=
    (hmakes wire).space_eq.trans (spaceAfter_eq_lastEffect _ _)
  have hanswers (wire : ι → Wire) (i : ι) : Hub.answers entries wire demands moves i =
      some (told i entries.space (history demands moves)) := by
    rw [Hub.answers, ← asked_history, (hmakes wire).reply_eq]
    exact readAnswers_sent (wire i) i hentries (history demands moves)
  refine
    { wire_eq := fun wire _ hsome ↦ wire.ofInput_input hsome
      asked_eq := asked_history demands moves
      space_eq := hspace
      answers_eq := fun wire i ↦ ⟨_, hanswers wire i, length_told ..⟩
      answer_eq := ?_
      switch := fun wire wire' ↦ ⟨(hspace wire).trans (hspace wire').symm,
        fun i ↦ (hanswers wire i).trans (hanswers wire' i).symm⟩ }
  intro past future i demand hhistory wire answers htold
  cases (hanswers wire i).symm.trans htold
  rw [hhistory]
  exact getElem?_told i entries.space past future demand

end

/-- The key that two connections meet at. -/
def sharedKey : Key where
  toToken := .word "k" (by decide) rfl
  fits := by decide

/-- One connection sets a key and deletes it; the other reads it twice. -/
def meeting : Bool → List Demand
  | true =>
    [{ access := .set sharedKey 5 [0x80, 0x0A] (by decide) }, { access := .delete sharedKey }]
  | false => [{ access := .get sharedKey, long := true }, { access := .get sharedKey, echo := 7 }]

/-- They take turns, and before the second read a text is put in. -/
def meetingMoves : List (Move Bool) :=
  [.turn true, .turn false, .put "k" "1" (by decide), .turn false, .turn true]

theorem run_oneSpace_meeting :
    (Entries.space .empty).Fits ∧ OneSpace .empty meeting meetingMoves ∧
      ∀ wire answers, Hub.answers .empty wire meeting meetingMoves false = some answers →
        answers[0]? = some (.hit ⟨5, [0x80, 0x0A]⟩) ∧ answers[1]? = some (.hit ⟨0, [0x31]⟩) := by
  have hspace : OneSpace .empty meeting meetingMoves :=
    run_oneSpace .empty meeting meetingMoves KeySpace.fits_empty
  refine ⟨KeySpace.fits_empty, hspace, fun wire answers hread ↦ ⟨?_, ?_⟩⟩
  · exact hspace.answer_eq ((history meeting meetingMoves).take 1) _ _ _ rfl hread
  · exact hspace.answer_eq ((history meeting meetingMoves).take 3) _ _ _ rfl hread

end CacheCheck.Memcached
