import CacheCheck.Memory
import CacheCheck.Proofs.Redis.Expected
import CacheCheck.Proofs.Suite.Answers
import CacheCheck.Redis.Cache

/-!
Replays. A conversation in which no call fails can be rehearsed: a rehearsal that expects its calls,
in order, and responds to each read with the value that was read, gives that conversation and is
used up by it (`Rehearsal.gives_ofExchange`). A cache in memory fails no call, whatever defect it
has, so a suite that was run on one can be run again on the rehearsal of what it said, with the same
report.

Where a rehearsal expects another command than the one that was recorded, that command is refused,
and the check that sends it fails there. Everything before it is as it was recorded
(`Rehearsal.run_replays`).
-/

set_option autoImplicit false

namespace CacheCheck

/-- An exchange in which the call did not fail. -/
inductive Exchange.Succeeds : Exchange → Prop
  | set (key value : String) : Succeeds ⟨.set key value, .stored (.ok ())⟩
  | get (key : String) (actual : Option String) : Succeeds ⟨.get key, .read (.ok actual)⟩

/-- The answer to a call that fails. -/
def Call.failing (call : Call) (failure : Failure) : Answer :=
  match call with
  | .set _ _ => .stored (.error failure)
  | .get _ => .read (.error failure)

theorem Check.objection?_failing (check : Check) (call : Call) (failure : Failure) :
    check.objection? ⟨call, call.failing failure⟩ = some failure := by
  cases call <;> rfl

theorem Memory.succeeds_of_mem_exchanges (backend : Backend) {calls : List Call} {m : Memory}
    {exchange : Exchange} (hmem : exchange ∈ (client backend).exchanges calls m) :
    exchange.Succeeds := by
  induction calls generalizing m with
  | nil => cases hmem
  | cons call rest ih =>
    rcases List.mem_cons.mp hmem with rfl | hrest
    · cases call with
      | set key value => exact .set key value
      | get key => exact .get key _
    · exact ih hrest

/-- Where an entry stands in a list that is made of parts: in one of them, behind the others. -/
theorem exists_of_flatMap_eq {α β : Type} {parts : α → List β} {all : List α}
    {before after : List β} {b : β} (h : all.flatMap parts = before ++ b :: after) :
    ∃ earlier a later first rest, all = earlier ++ a :: later ∧
      before = earlier.flatMap parts ++ first ∧ parts a = first ++ b :: rest := by
  induction all generalizing before with
  | nil => exact absurd h.symm (by simp)
  | cons a others ih =>
    have hplace : (∃ rest, parts a = before ++ b :: rest) ∨
        ∃ behind, before = parts a ++ behind ∧ others.flatMap parts = behind ++ b :: after := by
      rw [List.flatMap_cons, List.append_eq_append_iff] at h
      rcases h with ⟨behind, hbefore, hbehind⟩ | ⟨rest, hfirst, hrest⟩
      · exact Or.inr ⟨behind, hbefore, hbehind⟩
      · rcases List.cons_eq_append_iff.mp hrest with ⟨rfl, hbehind⟩ | ⟨rest, rfl, -⟩
        · exact Or.inr ⟨[], by rw [hfirst, List.append_nil, List.append_nil], hbehind⟩
        · exact Or.inl ⟨rest, hfirst⟩
    rcases hplace with ⟨rest, hfirst⟩ | ⟨behind, rfl, hbehind⟩
    · exact ⟨[], a, others, before, rest, rfl, rfl, hfirst⟩
    · obtain ⟨earlier, c, later, first, rest, rfl, rfl, hc⟩ := ih hbehind
      exact ⟨a :: earlier, c, later, first, rest, rfl, by simp, hc⟩

namespace Redis

open Resp (Command Reply)

/-- The command that a call is sent as. -/
def commandOf : Call → Command
  | .set key value => .set key value
  | .get key => .get key

/-- What is expected where an exchange is rehearsed. -/
def Expectation.ofExchange (exchange : Exchange) : Expectation :=
  match exchange.call with
  | .set key value => .set key value
  | .get key => .get key (exchange.observe none)

namespace Rehearsal

/-- The strict rehearsal of a conversation. -/
def ofExchanges (exchanges : List Exchange) : Rehearsal where
  queue := exchanges.map .ofExchange
  strict := true

/-- A call that was rehearsed is answered as it was, and its expectation is used up. -/
theorem answer_ofExchange (backend : Backend) {exchange : Exchange} (h : exchange.Succeeds)
    (rest : List Expectation) (strict : Bool) :
    (client backend).answer exchange.call ⟨.ofExchange exchange :: rest, strict⟩ =
      (exchange.answer, ⟨rest, strict⟩) := by
  cases h with
  | set key value =>
    have hsend := @send_of_eq (.set key value) rest strict (Command.set key value).pack rfl
    simp only [Client.answer_set, client, Redis.client, query, Expectation.ofExchange, hsend]
    rfl
  | get key actual =>
    have hsend := @send_of_eq (.get key actual) rest strict (Command.get key).pack rfl
    simp only [Client.answer_get, client, Redis.client, query, Expectation.ofExchange,
      Exchange.observe, hsend]
    cases actual with
    | none => rfl
    | some text =>
      simp [Expectation.get, Reply.ofText?, Reply.firstError?, Reply.toText?, Reply.bare,
        Reply.toText, Except.bind, Except.map]

/-- A conversation that was rehearsed is given, and what is expected behind it is left. -/
theorem gives_ofExchange (backend : Backend) {made : List Exchange}
    (h : ∀ exchange ∈ made, exchange.Succeeds) (rest : List Expectation) (strict : Bool) :
    (client backend).Gives ⟨made.map .ofExchange ++ rest, strict⟩ made ∧
      (client backend).after (made.map Exchange.call) ⟨made.map .ofExchange ++ rest, strict⟩ =
        ⟨rest, strict⟩ := by
  induction made with
  | nil => exact ⟨rfl, rfl⟩
  | cons exchange others ih =>
    have hanswer := answer_ofExchange backend (h exchange List.mem_cons_self)
      (others.map .ofExchange ++ rest) strict
    obtain ⟨hgives, hafter⟩ := ih fun other hmem ↦ h other (List.mem_cons_of_mem exchange hmem)
    rw [List.map_cons, List.cons_append, Client.gives_cons_iff, List.map_cons, Client.after_cons,
      hanswer]
    exact ⟨⟨rfl, hgives⟩, hafter⟩

/-- A call whose command is not the expected one fails with the refusal of it. -/
theorem answer_of_ne (backend : Backend) (call : Call) {next : Expectation}
    (h : (commandOf call).pack ≠ next.packed) (rest : List Expectation) (strict : Bool) :
    ((client backend).answer call ⟨next :: rest, strict⟩).1 =
      call.failing
        (.command backend (.redis (refusal next.packed (commandOf call).pack))) := by
  have hsend := send_of_ne rest strict h
  cases call with
  | set key value =>
    simp only [Client.answer_set, client, Redis.client, query]
    rw [show Command.set key value = commandOf (.set key value) from rfl, hsend]
    rfl
  | get key =>
    simp only [Client.answer_get, client, Redis.client, query]
    rw [show Command.get key = commandOf (.get key) from rfl, hsend]
    rfl

/-! ### Replays of suites -/

/-- The entry of a check that a failure ends, behind the exchanges it had made. -/
def brokenEntry (check : Check) (made : List Exchange) (failure : Failure) : CheckReport where
  name := check.name
  status := .failed
  writes := made.countP Exchange.isWrite
  reads := made.countP Exchange.isRead
  detail := some failure.message

theorem report_of_failing {σ τ : Type} {recorder : Client σ} {other : Client τ} {check : Check}
    {state : σ} {state' : τ} {made more : List Exchange} {exchange : Exchange} {failure : Failure}
    (hrun : (check.run recorder state).exchanges = made ++ exchange :: more)
    (hmade : other.Gives state' made)
    (hanswer : (other.answer exchange.call (other.after (made.map Exchange.call) state')).1 =
      exchange.call.failing failure) :
    (check.run other state').report check = brokenEntry check made failure := by
  have htraces := Check.run_traces other check state'
  obtain ⟨hexchanges, hverdict⟩ := Check.run_of_objection hrun hmade hanswer
    (check.objection?_failing exchange.call failure)
  -- The failed call is neither a write nor a read that counts.
  have hwrites : (check.run other state').outcome.writes = made.countP Exchange.isWrite := by
    rw [htraces.writes_eq, hexchanges, List.countP_append]
    cases exchange.call <;> simp [Call.failing, Exchange.isWrite]
  have hreads : (check.run other state').outcome.reads = made.countP Exchange.isRead := by
    rw [htraces.reads_eq, hexchanges, List.countP_append]
    cases exchange.call <;> simp [Call.failing, Exchange.isRead]
  simp only [Check.Progress.report, brokenEntry, hverdict, hwrites, hreads]

/-- What a suite says to a cache in memory. -/
def recorded (suite : Suite) (backend : Backend) (onFailure : OnFailure) (m : Memory) :
    List Exchange :=
  (suite.run (Memory.client backend) onFailure m).exchanges

theorem succeeds_of_mem_recorded {suite : Suite} {backend : Backend} {onFailure : OnFailure}
    {m : Memory} {exchange : Exchange} (hmem : exchange ∈ recorded suite backend onFailure m) :
    exchange.Succeeds := by
  have hgives := Suite.gives_runChecks (Memory.client backend) onFailure suite.checks m
  rw [recorded, Suite.run, ← hgives] at hmem
  exact Memory.succeeds_of_mem_exchanges backend hmem

open Suite (executed Execution)

/-- A rehearsal that expects something else where a call was recorded breaks the check that makes
the call, and has the entries of the run before it. -/
theorem exists_checks_of_ne {suite : Suite} {backend : Backend} {onFailure : OnFailure}
    {m : Memory} {before after : List Exchange} {exchange : Exchange} {next : Expectation}
    (hrecorded : recorded suite backend onFailure m = before ++ exchange :: after)
    (hne : (commandOf exchange.call).pack ≠ next.packed) (behind : List Expectation) :
    ∃ earlier execution later made rest others,
      executed (Memory.client backend) onFailure suite.checks m =
          earlier ++ execution :: later ∧
        before = (earlier.flatMap fun execution ↦ execution.progress.exchanges) ++ made ∧
        execution.progress.exchanges = made ++ exchange :: rest ∧
        (suite.run (client backend) onFailure
            ⟨before.map .ofExchange ++ next :: behind, true⟩).checks =
          earlier.map Execution.entry ++
            brokenEntry execution.check made (.command backend
              (.redis (refusal next.packed (commandOf exchange.call).pack))) :: others := by
  have hsucceeds : ∀ other ∈ before, other.Succeeds := fun other hmem ↦
    succeeds_of_mem_recorded (hrecorded ▸ List.mem_append_left _ hmem)
  rw [recorded, Suite.run, Suite.runChecks_exchanges] at hrecorded
  obtain ⟨earlier, execution, later, made, rest, hexecuted, rfl, hexchanges⟩ :=
    exists_of_flatMap_eq hrecorded
  -- The rehearsal gives what was said before, and then stands before what it does not expect.
  obtain ⟨hbefore, hthere⟩ := gives_ofExchange backend hsucceeds (next :: behind) true
  rw [Client.gives_append_iff] at hbefore
  rw [List.map_append, Client.after_append] at hthere
  obtain ⟨hprogress, others, hchecks⟩ := Suite.exists_checks_eq_of_gives hexecuted hbefore.1
  have hanswer := answer_of_ne backend exchange.call hne behind true
  rw [← hthere] at hanswer
  have hreport := report_of_failing (hprogress ▸ hexchanges) hbefore.2 hanswer
  exact ⟨earlier, execution, later, made, rest, others, hexecuted, rfl, hexchanges,
    hchecks.trans (by rw [hreport])⟩

/-- What rehearsals of a run on a cache in memory come to. -/
structure Replays (suite : Suite) (backend : Backend) (target : String) (onFailure : OnFailure)
    (m : Memory) : Prop where
  /-- The rehearsal of what was said gives the same report. -/
  report_eq : suite.runReport (client backend) target onFailure
      (ofExchanges (recorded suite backend onFailure m)) =
    suite.runReport (Memory.client backend) target onFailure m
  /-- It is used up by the run, and does not object at its end. -/
  state_eq : (suite.run (client backend) onFailure
      (ofExchanges (recorded suite backend onFailure m))).state = ⟨[], true⟩
  objection?_eq : (suite.run (client backend) onFailure
      (ofExchanges (recorded suite backend onFailure m))).state.objection? = none
  /-- Where other commands are expected than the one that was sent, the check that sends it fails
  there, with counts of the exchanges it had made; the entries before it are those of the run. -/
  refused (before after : List Exchange) (exchange : Exchange) (instead : Submission)
    (response : Except Fault (List Reply)) :
    recorded suite backend onFailure m = before ++ exchange :: after →
      instead.commands ≠ [commandOf exchange.call] →
      let fault := refusal instead.packed (commandOf exchange.call).pack
      fault.kind = .client ∧ ∃ earlier execution later made rest others,
        executed (Memory.client backend) onFailure suite.checks m =
            earlier ++ execution :: later ∧
          before = (earlier.flatMap fun execution ↦ execution.progress.exchanges) ++ made ∧
          execution.progress.exchanges = made ++ exchange :: rest ∧
          (suite.runReport (client backend) target onFailure
              ⟨before.map .ofExchange ++ ⟨instead.packed, response⟩ :: after.map .ofExchange,
                true⟩).checks =
            earlier.map Execution.entry ++
              brokenEntry execution.check made (.command backend (.redis fault)) :: others

/-- A suite that was run on a cache in memory runs alike on the rehearsal of it, and fails where the
rehearsal was changed. -/
theorem run_replays (suite : Suite) (backend : Backend) (target : String) (onFailure : OnFailure)
    (m : Memory) : Replays suite backend target onFailure m := by
  obtain ⟨hgives, hafter⟩ := gives_ofExchange backend
    (fun exchange (hmem : exchange ∈ recorded suite backend onFailure m) ↦
      succeeds_of_mem_recorded hmem) [] true
  rw [List.append_nil] at hgives hafter
  have hbackend : (client backend).backend = (Memory.client backend).backend := rfl
  have hrun := Suite.runChecks_eq_of_gives hbackend hgives
  have hstate : (suite.run (client backend) onFailure
      (ofExchanges (recorded suite backend onFailure m))).state = ⟨[], true⟩ :=
    (congrArg Suite.Run.state hrun).trans hafter
  refine
    { report_eq := ?_
      state_eq := hstate
      objection?_eq := by
        rw [hstate]
        rfl
      refused := ?_ }
  · exact congrArg (fun run ↦ suite.report backend target run.checks) hrun
  · intro before after exchange instead response hrecorded hinstead
    have hne : (commandOf exchange.call).pack ≠
        (Expectation.mk instead.packed response).packed := by
      intro heq
      have hsame : Submission.packed (.command (commandOf exchange.call)) = instead.packed := heq
      exact hinstead (Submission.packed_inj.mp hsame).symm
    exact ⟨kind_refusal instead.packed (commandOf exchange.call).pack,
      exists_checks_of_ne hrecorded hne (after.map .ofExchange)⟩

end Rehearsal

end Redis

end CacheCheck
