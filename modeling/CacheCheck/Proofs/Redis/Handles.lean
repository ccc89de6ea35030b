import CacheCheck.Proofs.Redis.Expected

/-!
Several handles on one rehearsed connection. What is expected is shared between them. Whether an end
that comes too early is objected to is the matter of each handle: a clone takes it over from the
handle it is made of, a refusal settles it for the one handle that was refused, and the objection is
raised by the handle that is let go last.

A submission takes one expectation off the queue, whatever comes of it (`submit_eq`). A call on a
clone that is let go right after it leaves the original as it was, but for the queue (`move_eq`). So
what comes of a run is settled by the expectations at the places of its calls (`run_takesInTurn`).
-/

set_option autoImplicit false

namespace CacheCheck.Redis

open Resp (Command Reply)

namespace Rehearsal

/-! ### Submissions -/

/-- The fault of a response that is not the one reply of a command. -/
def notOneReply : Fault :=
  .described .client "expected exactly one value configured as response" none

/-- Hands a submission to the connection, and takes what it hands back. An error that is one of the
replies is a reply here. -/
def submit (r : Rehearsal) (submission : Submission) : Except Fault (List Reply) × Rehearsal :=
  let (response, after) := r.send submission.packed
  match submission, response with
  | .command _, .ok replies =>
    if replies.length = 1 then (.ok replies, after)
    else (.error notOneReply, { after with strict := false })
  | _, response => (response, after)

/-- A command that is asked for is submitted, and the errors among the replies are read. -/
theorem query_eq_submit (r : Rehearsal) (command : Command) :
    ((r.query command).1.map fun reply ↦ [reply]) =
        (r.submit (.command command)).1.bind checkAll ∧
      (r.query command).2 = (r.submit (.command command)).2 := by
  simp only [query, submit, Submission.packed]
  generalize r.send command.pack = sent
  match sent with
  | (.error fault, after) => exact ⟨rfl, rfl⟩
  | (.ok [], after) => exact ⟨rfl, rfl⟩
  | (.ok (_ :: _ :: _), after) => exact ⟨rfl, rfl⟩
  | (.ok [reply], after) =>
    simp only [List.length_singleton, if_true, Except.bind, checkAll, Reply.firstErrorIn?,
      Option.or_none]
    cases reply.firstError? <;> exact ⟨rfl, rfl⟩

@[inherit_doc query_eq_submit]
theorem pipeline_eq_submit (r : Rehearsal) {commands : List Command} (h : commands ≠ []) :
    r.pipeline commands =
      ((r.submit (.pipeline commands)).1.bind checkAll, (r.submit (.pipeline commands)).2) := by
  rw [pipeline, if_neg (by simpa using h)]
  rfl

/-- The answer to a submission where `next?` is expected. -/
def answer (next? : Option Expectation) (submission : Submission) :
    Except Fault (List Reply) :=
  match next? with
  | none => .error (unexpected "unexpected command")
  | some next =>
    if submission.packed ≠ next.packed then .error (refusal next.packed submission.packed)
    else
      match submission, next.response with
      | _, .error fault => .error fault
      | .pipeline _, .ok replies => .ok replies
      | .command _, .ok replies =>
        if replies.length = 1 then .ok replies else .error notOneReply

/-- Whether the connection itself refuses a submission where `next?` is expected: as one that is not
expected, or as a command for which there is not one reply. -/
def refuses (next? : Option Expectation) (submission : Submission) : Bool :=
  match next? with
  | none => true
  | some next =>
    submission.packed ≠ next.packed ||
      match submission, next.response with
      | .command _, .ok replies => replies.length ≠ 1
      | _, _ => false

/-- A submission takes one expectation, whatever comes of it. -/
theorem submit_eq (r : Rehearsal) (submission : Submission) :
    r.submit submission =
      (answer r.queue.head? submission,
        ⟨r.queue.tail, r.strict && !refuses r.queue.head? submission⟩) := by
  obtain ⟨queue, strict⟩ := r
  cases queue with
  | nil => cases submission <;> simp [submit, send, answer, refuses]
  | cons next rest =>
    by_cases hsame : submission.packed = next.packed
    · rw [submit, send_of_eq rest strict hsame]
      simp only [answer, refuses, hsame, List.head?_cons, List.tail_cons, ne_eq, not_true,
        if_false, decide_false, Bool.false_or]
      cases submission with
      | pipeline commands => cases next.response <;> simp
      | command command =>
        cases next.response with
        | error fault => simp
        | ok replies => by_cases hone : replies.length = 1 <;> simp [hone]
    · rw [submit, send_of_ne rest strict hsame]
      cases submission <;> simp [answer, refuses, hsame]

/-- What is refused is answered with a fault of the client. -/
theorem exists_fault_of_refuses {next? : Option Expectation} {submission : Submission}
    (h : refuses next? submission = true) :
    ∃ fault, answer next? submission = .error fault ∧ fault.kind = .client := by
  cases next? with
  | none => exact ⟨_, rfl, rfl⟩
  | some next =>
    by_cases hsame : submission.packed = next.packed
    · cases submission with
      | pipeline commands => simp [refuses, hsame] at h
      | command command =>
        cases hresponse : next.response with
        | error fault => simp [refuses, hsame, hresponse] at h
        | ok replies =>
          have hone : replies.length ≠ 1 := by simpa [refuses, hsame, hresponse] using h
          exact ⟨notOneReply, by simp [answer, hsame, hresponse, hone], rfl⟩
    · exact ⟨refusal next.packed submission.packed, by simp [answer, hsame], rfl⟩

theorem objection?_eq_some_iff (r : Rehearsal) (text : String) :
    r.objection? = some text ↔
      r.strict = true ∧ r.queue ≠ [] ∧
        text = toString r.queue.length ++ " expected command(s) were never sent" := by
  rw [objection?]
  split
  · next h =>
    rw [Bool.and_eq_true, Bool.not_eq_true', List.isEmpty_eq_false_iff] at h
    rw [Option.some.injEq, eq_comm]
    exact ⟨fun htext ↦ ⟨h.1, h.2, htext⟩, fun h ↦ h.2.2⟩
  · next h =>
    rw [Bool.and_eq_true, Bool.not_eq_true', List.isEmpty_eq_false_iff] at h
    refine ⟨fun hnone ↦ (by cases hnone), fun hsome ↦ absurd ⟨hsome.1, hsome.2.1⟩ h⟩

end Rehearsal

/-! ### Handles -/

/-- A rehearsed connection and the handles on it that live, the original first. -/
structure Handles where
  queue : List Expectation
  /-- Whether each handle objects to an end that comes too early. -/
  strict : List Bool

namespace Handles

open Rehearsal (answer refuses)

/-- The connection as a handle sees it. -/
def view (handles : Handles) (handle : Nat) : Rehearsal :=
  ⟨handles.queue, handles.strict.getD handle false⟩

/-- Makes a further handle out of one, behind the others. -/
def clone (handles : Handles) (handle : Nat) : Handles :=
  { handles with strict := handles.strict ++ [(handles.view handle).strict] }

/-- Submits through a handle. -/
def submit (handles : Handles) (handle : Nat) (submission : Submission) :
    Except Fault (List Reply) × Handles :=
  let (reply, after) := (handles.view handle).submit submission
  (reply, ⟨after.queue, handles.strict.set handle after.strict⟩)

/-- Lets a handle go, and the objection if one is raised: by the last handle alone. -/
def drop (handles : Handles) (handle : Nat) : Option String × Handles :=
  (if handles.strict.length = 1 then (handles.view handle).objection? else none,
    { handles with strict := handles.strict.eraseIdx handle })

/-- A call: a submission of at least one command, on the original handle, or aside on a clone that
is made for it. -/
structure Move where
  submission : Submission
  aside : Bool
  nonempty : submission.commands ≠ []

/-- What is seen of a call: its answer and the objection, if there is one, when its clone is let
go. -/
structure Turn where
  answer : Except Fault (List Reply)
  objection? : Option String

/-- Makes a call. -/
def move (handles : Handles) (call : Move) : Turn × Handles :=
  if call.aside then
    let clone := handles.strict.length
    let (answer, after) := (handles.clone 0).submit clone call.submission
    let (objection?, after) := after.drop clone
    (⟨answer, objection?⟩, after)
  else
    let (answer, after) := handles.submit 0 call.submission
    (⟨answer, none⟩, after)

/-- Makes calls in order. -/
def run : Handles → List Move → List Turn × Handles
  | handles, [] => ([], handles)
  | handles, call :: rest =>
    let (turn, after) := handles.move call
    let (turns, final) := after.run rest
    (turn :: turns, final)

/-- A call that is refused on the original handle. -/
def disarms (next? : Option Expectation) (call : Move) : Bool :=
  !call.aside && refuses next? call.submission

/-- A call takes one expectation, and nothing is left of it but that, unless the original itself is
refused. -/
theorem move_eq (queue : List Expectation) (strict : Bool) (call : Move) :
    (Handles.mk queue [strict]).move call =
      (⟨answer queue.head? call.submission, none⟩,
        ⟨queue.tail, [strict && !disarms queue.head? call]⟩) := by
  obtain ⟨submission, aside, nonempty⟩ := call
  cases aside with
  | true => simp [move, clone, submit, drop, view, Rehearsal.submit_eq, disarms]
  | false => simp [move, submit, view, Rehearsal.submit_eq, disarms]

/-- A run takes one expectation for each call, and answers each by its own. -/
theorem run_eq (queue : List Expectation) (strict : Bool) (calls : List Move) :
    (Handles.mk queue [strict]).run calls =
      (calls.mapIdx fun i call ↦ ⟨answer queue[i]? call.submission, none⟩,
        ⟨queue.drop calls.length,
          [strict && !(calls.mapIdx fun i call ↦ disarms queue[i]? call).any id]⟩) := by
  induction calls generalizing queue strict with
  | nil => simp [run]
  | cons call rest ih =>
    rw [run, move_eq]
    simp only [ih, List.mapIdx_cons, List.getElem?_tail, List.head?_eq_getElem?, List.drop_tail,
      List.length_cons, List.any_cons, id, Bool.not_or, Bool.and_assoc]

/-- A command that is asked for aside goes through a clone, and the errors in its reply are read. -/
theorem move_queryAside (r : Rehearsal) (command : Command) :
    let (turn, after) := (Handles.mk r.queue [r.strict]).move
      ⟨.command command, true, List.cons_ne_nil command []⟩
    ((r.queryAside command).1.map fun reply ↦ [reply]) = turn.answer.bind Rehearsal.checkAll ∧
      turn.objection? = none ∧
      after = ⟨(r.queryAside command).2.queue, [(r.queryAside command).2.strict]⟩ := by
  obtain ⟨hreply, hafter⟩ := r.query_eq_submit command
  rw [Rehearsal.submit_eq] at hreply hafter
  rw [move_eq]
  exact ⟨hreply, rfl, by simp [Rehearsal.queryAside, hafter, disarms]⟩

theorem any_disarms_eq_false_iff (expected : List Expectation) (calls : List Move) :
    (calls.mapIdx fun i call ↦ disarms expected[i]? call).any id = false ↔
      ∀ (i : Nat) (call : Move), calls[i]? = some call → call.aside = false →
        refuses expected[i]? call.submission = false := by
  rw [List.any_eq_false]
  constructor
  · intro h i call hcall haside
    obtain ⟨hi, rfl⟩ := List.getElem?_eq_some_iff.mp hcall
    simpa [disarms, haside] using h _ (List.mem_mapIdx.mpr ⟨i, hi, rfl⟩)
  · intro h disarmed hmem
    obtain ⟨i, hi, rfl⟩ := List.mem_mapIdx.mp hmem
    cases haside : calls[i].aside with
    | true => simp [disarms, haside]
    | false => simp [disarms, h i calls[i] (List.getElem?_eq_getElem hi) haside]

/-- What a run of calls comes to, where the connection was set up with what is expected of it, and
to object to an early end or not. -/
structure TakesInTurn (expected : List Expectation) (strict : Bool) (calls : List Move) : Prop where
  /-- Each call is answered by the expectation at its place. -/
  answers_eq : ((Handles.mk expected [strict]).run calls).1.map Turn.answer =
    calls.mapIdx fun i call ↦ answer expected[i]? call.submission
  /-- What the connection itself refuses is answered with a fault of the client. -/
  refused (i : Nat) (call : Move) : calls[i]? = some call →
    refuses expected[i]? call.submission = true →
      ∃ fault, answer expected[i]? call.submission = .error fault ∧ fault.kind = .client
  /-- Each call takes one expectation. -/
  queue_eq (count : Nat) : count ≤ calls.length →
    ((Handles.mk expected [strict]).run (calls.take count)).2.queue = expected.drop count
  /-- No clone objects. -/
  clones : ∀ turn ∈ ((Handles.mk expected [strict]).run calls).1, turn.objection? = none
  /-- The original objects at the end if it was to, if something is left, and if it was itself
  refused nothing; it says how much is left. -/
  objection?_eq_some_iff (text : String) :
    (((Handles.mk expected [strict]).run calls).2.drop 0).1 = some text ↔
      strict = true ∧ calls.length < expected.length ∧
        (∀ (i : Nat) (call : Move), calls[i]? = some call → call.aside = false →
          refuses expected[i]? call.submission = false) ∧
        text = toString (expected.length - calls.length) ++
          " expected command(s) were never sent"

/-- The calls of a run take what is expected in turn. -/
theorem run_takesInTurn (expected : List Expectation) (strict : Bool) (calls : List Move) :
    TakesInTurn expected strict calls where
  answers_eq := by
    refine List.ext_getElem? fun i ↦ ?_
    simp [run_eq, List.getElem?_mapIdx, Function.comp_def]
  refused i call _ := Rehearsal.exists_fault_of_refuses
  queue_eq count hcount := by rw [run_eq, List.length_take_of_le hcount]
  clones turn hturn := by
    rw [run_eq, List.mem_mapIdx] at hturn
    obtain ⟨i, hi, rfl⟩ := hturn
    rfl
  objection?_eq_some_iff text := by
    have hleft : expected.drop calls.length ≠ [] ↔ calls.length < expected.length := by
      rw [ne_eq, List.drop_eq_nil_iff, Nat.not_le]
    have hstrict : (strict && !(calls.mapIdx fun i call ↦ disarms expected[i]? call).any id) = true ↔
        strict = true ∧ (calls.mapIdx fun i call ↦ disarms expected[i]? call).any id = false := by
      rw [Bool.and_eq_true, Bool.not_eq_true']
    rw [run_eq, drop, List.length_singleton, if_pos rfl, Rehearsal.objection?_eq_some_iff]
    simp only [view, List.getD_cons_zero, hstrict, hleft, List.length_drop,
      any_disarms_eq_false_iff]
    constructor
    · rintro ⟨⟨hstrict, hkept⟩, hless, htext⟩
      exact ⟨hstrict, hless, hkept, htext⟩
    · rintro ⟨hstrict, hless, hkept, htext⟩
      exact ⟨⟨hstrict, hkept⟩, hless, htext⟩

end Handles

end CacheCheck.Redis
