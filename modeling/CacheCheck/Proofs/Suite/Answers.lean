import CacheCheck.Proofs.Check.Plan
import CacheCheck.Proofs.Suite.FirstFailure

/-!
A run depends on its client through the answers alone. A client gives a conversation when it answers
every call of it, one after the other, as the conversation says (`Client.Gives`). Two clients that
give the same conversation are the same to a check that holds it with one of them
(`Check.run_eq_of_gives`), and so to a suite (`Suite.runChecks_eq_of_gives`): the entries and the
events are equal, and only the states differ.

A client that gives a conversation up to some call, and there an answer that the check objects to,
ends the check with that call (`Check.run_of_objection`). The entries of the checks before it are
the same as with the other client (`Suite.exists_checks_eq_of_gives`).
-/

set_option autoImplicit false

namespace CacheCheck

variable {σ τ : Type}

namespace Client

theorem exchanges_append (client : Client σ) (first second : List Call) (state : σ) :
    client.exchanges (first ++ second) state =
      client.exchanges first state ++ client.exchanges second (client.after first state) := by
  induction first generalizing state with
  | nil => rfl
  | cons call rest ih =>
    rw [List.cons_append, exchanges, exchanges, ih, List.cons_append, after_cons]

theorem after_append (client : Client σ) (first second : List Call) (state : σ) :
    client.after (first ++ second) state = client.after second (client.after first state) :=
  List.foldl_append

/-- A client answers the calls of a conversation as the conversation says. -/
def Gives (client : Client σ) (state : σ) (made : List Exchange) : Prop :=
  client.exchanges (made.map Exchange.call) state = made

theorem gives_cons_iff (client : Client σ) (state : σ) (exchange : Exchange)
    (rest : List Exchange) :
    client.Gives state (exchange :: rest) ↔
      (client.answer exchange.call state).1 = exchange.answer ∧
        client.Gives (client.answer exchange.call state).2 rest := by
  rw [Gives, List.map_cons, exchanges, List.cons.injEq]
  refine and_congr_left fun _ ↦ ?_
  obtain ⟨call, answer⟩ := exchange
  simp

theorem gives_append_iff (client : Client σ) (state : σ) (first second : List Exchange) :
    client.Gives state (first ++ second) ↔
      client.Gives state first ∧
        client.Gives (client.after (first.map Exchange.call) state) second := by
  induction first generalizing state with
  | nil => simp [Gives, exchanges]
  | cons exchange rest ih =>
    rw [List.cons_append, gives_cons_iff, gives_cons_iff, ih, List.map_cons, after_cons, and_assoc]

end Client

/-! ### Checks -/

namespace Check

/-- The same progress, with another client's state. -/
def Progress.withState (progress : Progress σ) (state : τ) : Progress τ :=
  ⟨progress.verdict, progress.outcome, state, progress.events⟩

theorem Step.run_eq_of_silent (client : Client σ) (other : Client τ) {step : Step}
    (hcall : step.call? = none) (outcome : Outcome) (state : σ) (state' : τ) :
    step.run other outcome state' = (step.run client outcome state).withState state' := by
  cases step with
  | pause milliseconds key => rfl
  | forget => rfl
  | write key value => cases hcall
  | expect key value => cases hcall
  | absent key => cases hcall
  | observe key => cases hcall

theorem runSteps_cons_of_silent (client : Client σ) {step : Step} (rest : List Step)
    (hcall : step.call? = none) (outcome : Outcome) (state : σ) :
    runSteps client (step :: rest) outcome state =
      let now := step.run client outcome state
      let later := runSteps client rest now.outcome state
      { later with events := now.events ++ later.events } := by
  obtain ⟨hverdict, hstate, -, -, -⟩ := Step.run_of_silent client hcall outcome state
  simp only [runSteps, hverdict, hstate]

theorem runSteps_eq_of_gives {client : Client σ} {other : Client τ} {steps : List Step}
    {outcome : Outcome} {state : σ} {state' : τ}
    (h : other.Gives state' (runSteps client steps outcome state).exchanges) :
    runSteps other steps outcome state' =
      (runSteps client steps outcome state).withState
        (other.after (runSteps client steps outcome state).calls state') := by
  induction steps generalizing outcome state state' with
  | nil => rfl
  | cons step rest ih =>
    cases hcall : step.call? with
    | none =>
      obtain ⟨-, -, -, hexchanges⟩ := runSteps_of_silent client rest outcome state hcall
      rw [hexchanges] at h
      have hlater := ih h
      rw [Progress.calls, hexchanges, runSteps_cons_of_silent client rest hcall,
        runSteps_cons_of_silent other rest hcall, Step.run_eq_of_silent client other hcall _ state]
      simp only [Progress.withState] at hlater ⊢
      rw [hlater]
      rfl
    | some call =>
      rw [runSteps_of_call client rest outcome state hcall] at h ⊢
      rw [runSteps_of_call other rest outcome state' hcall]
      simp only at h ⊢
      cases hobjection : step.objection? (client.answer call state).1 with
      | some failure =>
        simp only [hobjection] at h ⊢
        obtain ⟨hanswer, -⟩ := (other.gives_cons_iff state' ⟨call, _⟩ []).mp h
        simp only at hanswer
        rw [hanswer, hobjection]
        rfl
      | none =>
        simp only [hobjection] at h ⊢
        obtain ⟨hanswer, hrest⟩ := (other.gives_cons_iff state' ⟨call, _⟩ _).mp h
        simp only at hanswer hrest
        have hlater := ih hrest
        rw [hanswer, hobjection]
        simp only [hlater]
        rfl

/-- A check runs alike with clients that give the same conversation. -/
theorem run_eq_of_gives {client : Client σ} {other : Client τ} {check : Check} {state : σ}
    {state' : τ} (h : other.Gives state' (check.run client state).exchanges) :
    check.run other state' =
      (check.run client state).withState
        (other.after (check.run client state).calls state') :=
  runSteps_eq_of_gives h

theorem exchanges_run_isPrefix (client : Client σ) (check : Check) (state : σ) :
    (check.run client state).exchanges <+: client.exchanges check.plan state := by
  rw [(run_traces client check state).exchanges_eq]
  exact upTo_isPrefix _ _

/-- What a check says to its client is a conversation that the client gives. -/
theorem gives_run (client : Client σ) (check : Check) (state : σ) :
    client.Gives state (check.run client state).exchanges :=
  (client.exchanges_eq_of_isPrefix (exchanges_run_isPrefix client check state)).symm

theorem mem_plan_of_mem_calls {client : Client σ} {check : Check} {state : σ} {call : Call}
    (hcall : call ∈ (check.run client state).calls) : call ∈ check.plan := by
  rw [← client.map_call_exchanges check.plan state]
  exact ((exchanges_run_isPrefix client check state).map Exchange.call).subset hcall

/-- An answer that the check objects to ends it, after a conversation that it would have gone on
from. -/
theorem run_of_objection {client : Client σ} {other : Client τ} {check : Check} {state : σ}
    {state' : τ} {made more : List Exchange} {exchange : Exchange} {answer : Answer}
    {failure : Failure} (hrun : (check.run client state).exchanges = made ++ exchange :: more)
    (hmade : other.Gives state' made)
    (hanswer :
      (other.answer exchange.call (other.after (made.map Exchange.call) state')).1 = answer)
    (hbad : check.objection? ⟨exchange.call, answer⟩ = some failure) :
    (check.run other state').exchanges = made ++ [⟨exchange.call, answer⟩] ∧
      (check.run other state').verdict = .error failure := by
  have hrecorded := (run_traces client check state).exchanges_eq
  have htraces := run_traces other check state'
  -- What was made before is good, and its calls are the first of the plan.
  have hgood : ∀ earlier ∈ made, check.isBad earlier = false := by
    intro earlier hmem
    have hdrop : earlier ∈ (upTo check.isBad (client.exchanges check.plan state)).dropLast := by
      rw [← hrecorded, hrun, List.dropLast_append_of_ne_nil (List.cons_ne_nil exchange more)]
      exact List.mem_append_left _ hmem
    exact test_eq_false_of_mem_dropLast_upTo hdrop
  obtain ⟨rest, hrest⟩ : made ++ exchange :: more <+: client.exchanges check.plan state :=
    hrun ▸ exchanges_run_isPrefix client check state
  have hplan : check.plan =
      made.map Exchange.call ++ exchange.call :: (more ++ rest).map Exchange.call := by
    rw [← client.map_call_exchanges check.plan state, ← hrest]
    simp
  have hexchanges : (check.run other state').exchanges = made ++ [⟨exchange.call, answer⟩] := by
    have hisBad : check.isBad ⟨exchange.call, answer⟩ = true := by
      rw [isBad, hbad]
      rfl
    rw [htraces.exchanges_eq, hplan, Client.exchanges_append, hmade, Client.exchanges, hanswer]
    exact upTo_append_cons _ hgood hisBad
  refine ⟨hexchanges, ?_⟩
  rw [htraces.verdict_eq, hexchanges, List.getLast?_concat, Option.bind_some, hbad]
  rfl

end Check

/-! ### Suites -/

namespace Suite

/-- The calls of a run, in order. -/
def Run.calls (run : Run σ) : List Call :=
  run.exchanges.map Exchange.call

/-- The same run, with another client's state. -/
def Run.withState (run : Run σ) (state : τ) : Run τ :=
  ⟨run.checks, state, run.events⟩

/-- A check after which a run goes on is one more entry in front of what follows. -/
theorem runChecks_cons_of_goes (client : Client σ) {onFailure : OnFailure} {check : Check}
    (rest : List Check) {state : σ}
    (h : ¬ (((check.run client state).report check).status = .failed ∧ onFailure = .stop)) :
    runChecks client onFailure (check :: rest) state =
      let progress := check.run client state
      let later := runChecks client onFailure rest progress.state
      ⟨progress.report check :: later.checks, later.state,
        progress.history client.backend check ++ later.events⟩ := by
  simp only [runChecks, if_neg h]

/-- A check after which a run stops is its last, and the others are skipped. -/
theorem runChecks_cons_of_stops (client : Client σ) {onFailure : OnFailure} {check : Check}
    (rest : List Check) {state : σ}
    (h : ((check.run client state).report check).status = .failed ∧ onFailure = .stop) :
    runChecks client onFailure (check :: rest) state =
      let progress := check.run client state
      ⟨progress.report check :: skippedEntries rest, progress.state,
        progress.history client.backend check⟩ := by
  simp only [runChecks, if_pos h, List.append_nil]
  rfl

theorem exchanges_of_history (progress : Check.Progress σ) (backend : Backend) (check : Check)
    (later : List Event) :
    (progress.history backend check ++ later).filterMap Event.exchange? =
      progress.exchanges ++ later.filterMap Event.exchange? := by
  rw [List.filterMap_append, filterMap_exchange?_history ⟨check, progress⟩]

/-- What a suite says to its client is a conversation that the client gives, and that leaves the
client in the state that the run does. -/
theorem gives_executed (client : Client σ) (onFailure : OnFailure) (checks : List Check)
    (state : σ) :
    let made := (executed client onFailure checks state).flatMap fun execution ↦
      execution.progress.exchanges
    client.Gives state made ∧
      Execution.after (executed client onFailure checks state) state =
        client.after (made.map Exchange.call) state := by
  induction checks generalizing state with
  | nil => cases onFailure <;> exact ⟨rfl, rfl⟩
  | cons check rest ih =>
    have hgives := Check.gives_run client check state
    have hstate := (Check.run_traces client check state).state_eq
    rw [executed_cons]
    simp only
    split
    · rw [List.flatMap_singleton]
      exact ⟨hgives, hstate⟩
    · obtain ⟨hrest, hafter⟩ := ih (check.run client state).state
      rw [List.flatMap_cons, List.map_append, Client.gives_append_iff, Client.after_append,
        ← Check.Progress.calls, ← hstate]
      exact ⟨⟨hgives, hrest⟩, hafter⟩

theorem gives_runChecks (client : Client σ) (onFailure : OnFailure) (checks : List Check)
    (state : σ) : client.Gives state (runChecks client onFailure checks state).exchanges := by
  rw [runChecks_exchanges]
  exact (gives_executed client onFailure checks state).1

theorem runChecks_state_eq (client : Client σ) (onFailure : OnFailure) (checks : List Check)
    (state : σ) :
    (runChecks client onFailure checks state).state =
      client.after (runChecks client onFailure checks state).calls state := by
  rw [runChecks_state, Run.calls, runChecks_exchanges]
  exact (gives_executed client onFailure checks state).2

/-- A run makes no other calls than its checks have planned. -/
theorem exists_plan_of_mem_calls {client : Client σ} {onFailure : OnFailure}
    {checks : List Check} {state : σ} {call : Call}
    (hcall : call ∈ (runChecks client onFailure checks state).calls) :
    ∃ check ∈ checks, call ∈ check.plan := by
  induction checks generalizing state with
  | nil => cases hcall
  | cons check rest ih =>
    rw [Run.calls, runChecks_exchanges, executed_cons] at hcall
    simp only at hcall
    split at hcall
    · rw [List.flatMap_singleton] at hcall
      exact ⟨check, List.mem_cons_self, Check.mem_plan_of_mem_calls hcall⟩
    · rw [List.flatMap_cons, List.map_append, List.mem_append, ← runChecks_exchanges] at hcall
      rcases hcall with hnow | hlater
      · exact ⟨check, List.mem_cons_self, Check.mem_plan_of_mem_calls hnow⟩
      · obtain ⟨other, hother, hplan⟩ := ih hlater
        exact ⟨other, List.mem_cons_of_mem check hother, hplan⟩

/-- A suite runs alike with clients that give the same conversation. -/
theorem runChecks_eq_of_gives {client : Client σ} {other : Client τ}
    (hbackend : other.backend = client.backend) {onFailure : OnFailure} {checks : List Check}
    {state : σ} {state' : τ}
    (h : other.Gives state' (runChecks client onFailure checks state).exchanges) :
    runChecks other onFailure checks state' =
      (runChecks client onFailure checks state).withState
        (other.after (runChecks client onFailure checks state).calls state') := by
  induction checks generalizing state state' with
  | nil => rfl
  | cons check rest ih =>
    by_cases hstops : ((check.run client state).report check).status = .failed ∧ onFailure = .stop
    · have hrun := runChecks_cons_of_stops client rest hstops
      have hexchanges : (runChecks client onFailure (check :: rest) state).exchanges =
          (check.run client state).exchanges := by
        rw [Run.exchanges, hrun]
        exact filterMap_exchange?_history ⟨check, check.run client state⟩ client.backend
      rw [hexchanges] at h
      have hcheck := Check.run_eq_of_gives h
      rw [Run.calls, hexchanges, hrun, runChecks_cons_of_stops other rest (by rwa [hcheck]),
        hcheck, hbackend]
      rfl
    · have hrun := runChecks_cons_of_goes client rest hstops
      have hexchanges : (runChecks client onFailure (check :: rest) state).exchanges =
          (check.run client state).exchanges ++
            (runChecks client onFailure rest (check.run client state).state).exchanges := by
        rw [Run.exchanges, hrun]
        exact exchanges_of_history _ _ _ _
      rw [hexchanges, Client.gives_append_iff] at h
      have hcheck := Check.run_eq_of_gives h.1
      have hlater := ih h.2
      rw [Run.calls, hexchanges, hrun, runChecks_cons_of_goes other rest (by rwa [hcheck]),
        hcheck, hbackend, List.map_append, Client.after_append]
      simp only [Check.Progress.withState, Check.Progress.calls] at hlater ⊢
      rw [hlater]
      rfl

/-- Clients that give the same conversation up to some check make the same entries up to there. -/
theorem exists_checks_eq_of_gives {client : Client σ} {other : Client τ} {onFailure : OnFailure}
    {checks : List Check} {state : σ} {state' : τ} {before behind : List (Execution σ)}
    {execution : Execution σ}
    (hexecuted : executed client onFailure checks state = before ++ execution :: behind)
    (h : other.Gives state' (before.flatMap fun earlier ↦ earlier.progress.exchanges)) :
    execution.progress = execution.check.run client (Execution.after before state) ∧
      ∃ rest, (runChecks other onFailure checks state').checks =
        before.map Execution.entry ++
          (execution.check.run other (other.after ((before.flatMap fun earlier ↦
            earlier.progress.exchanges).map Exchange.call) state')).report execution.check ::
          rest := by
  induction before generalizing checks state state' with
  | nil =>
    cases checks with
    | nil => cases onFailure <;> cases hexecuted
    | cons check rest =>
      rw [executed_cons] at hexecuted
      have hhead : execution = ⟨check, check.run client state⟩ := by
        simp only at hexecuted
        split at hexecuted <;> exact (List.head_eq_of_cons_eq hexecuted).symm
      subst hhead
      exact ⟨rfl, _, rfl⟩
  | cons first before ih =>
    cases checks with
    | nil => cases onFailure <;> cases hexecuted
    | cons check rest =>
      rw [executed_cons] at hexecuted
      by_cases hstops :
          (Execution.entry ⟨check, check.run client state⟩).status = .failed ∧ onFailure = .stop
      · simp only [if_pos hstops] at hexecuted
        cases before <;> cases hexecuted
      · simp only [if_neg hstops, List.cons_append, List.cons.injEq] at hexecuted
        obtain ⟨rfl, hrest⟩ := hexecuted
        rw [List.flatMap_cons, Client.gives_append_iff] at h
        have hcheck := Check.run_eq_of_gives h.1
        obtain ⟨hprogress, others, hothers⟩ := ih hrest h.2
        refine ⟨hprogress, others, ?_⟩
        rw [runChecks_cons_of_goes other rest (by rw [hcheck]; exact hstops), hcheck,
          List.flatMap_cons, List.map_append, Client.after_append, List.map_cons,
          List.cons_append]
        exact congrArg (_ :: ·) hothers

end Suite

end CacheCheck
