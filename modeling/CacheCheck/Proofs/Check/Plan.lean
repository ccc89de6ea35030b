import CacheCheck.Proofs.Exchange

/-!
A check follows its plan. Whatever state machine the client is, the calls of a run are the first
ones of the plan, up to and including the first whose answer the check objects to, or all of them.
The verdict is that objection, and the counts are those of the answers before it.

The argument goes through the steps of a check. A step that calls is determined by the answer it
gets (`Step.run_of_call`), and a step that does not call leaves the conversation as it is
(`Step.run_of_silent`). Hence a run of steps is one of three: it goes on without a call
(`runSteps_of_silent`), it goes on after a call (`Traces.cons`), or it ends with one
(`traces_of_bad`). What is kept of the values read is followed apart from that (`observed_run`),
since a bulk write lets go of them at its end.
-/

set_option autoImplicit false

namespace CacheCheck

/-- The failure an answer is reported as: a failed call as it is, a value as the reader judges. -/
def Answer.objection? (complaint? : Option String → Option Failure) : Answer → Option Failure
  | .stored (.error failure) | .read (.error failure) => some failure
  | .stored (.ok ()) => none
  | .read (.ok actual) => complaint? actual

/-- The verdict that an objection, or the lack of one, comes to. -/
def verdictOf : Option Failure → Except Failure Unit
  | none => .ok ()
  | some failure => .error failure

namespace Check

variable {σ : Type}

/-- What a check says of the value read under a key. Round trips and bulk writes insist on the
value that was written, a missing key must be absent, and a probe takes whatever there is. -/
def complaint? (check : Check) (key : String) (actual : Option String) : Option Failure :=
  match check with
  | roundTrip _ value | delayed _ value _ =>
    if actual = some value then none else some (.mismatch key value actual)
  | bulk _ _ => if actual = some key then none else some (.mismatch key key actual)
  | missing _ => actual.map (.unexpectedValue key)
  | probe _ => none

/-- What a check says of an exchange; an exchange is bad when the check says anything. -/
def objection? (check : Check) (exchange : Exchange) : Option Failure :=
  exchange.answer.objection? (check.complaint? exchange.call.key)

def isBad (check : Check) (exchange : Exchange) : Bool :=
  (check.objection? exchange).isSome

/-! ### Steps -/

/-- What a step says of the value it reads. -/
def Step.complaint? : Step → Option String → Option Failure
  | .expect key value, actual =>
    if actual = some value then none else some (.mismatch key value actual)
  | .absent key, actual => actual.map (.unexpectedValue key)
  | _, _ => none

/-- What a step says of the answer it gets. -/
def Step.objection? (step : Step) (answer : Answer) : Option Failure :=
  answer.objection? step.complaint?

/-- The counts after a step got an answer. -/
def Step.tally (step : Step) (outcome : Outcome) : Answer → Outcome
  | .stored (.ok ()) => { outcome with writes := outcome.writes + 1 }
  | .read (.ok actual) => (step.judge actual { outcome with reads := outcome.reads + 1 }).2
  | _ => outcome

theorem Step.judge_fst (step : Step) (actual : Option String) (outcome : Outcome) :
    (step.judge actual outcome).1 = verdictOf (step.complaint? actual) := by
  cases step with
  | expect key value =>
    by_cases h : actual = some value <;> simp [Step.judge, Step.complaint?, verdictOf, h]
  | absent key => cases actual <;> rfl
  | _ => rfl

theorem Step.read_eq (client : Client σ) (step : Step) (key : String) (outcome : Outcome)
    (state : σ) :
    step.read client key outcome state =
      { verdict := verdictOf (step.objection? (client.answer (.get key) state).1)
        outcome := step.tally outcome (client.answer (.get key) state).1
        state := (client.answer (.get key) state).2
        events := [.called (.get key) (client.answer (.get key) state).1] } := by
  rw [Client.answer_get, Step.read]
  generalize client.get key state = got
  rcases got with ⟨failure | actual, next⟩
  · rfl
  · simp only [Step.objection?, Answer.objection?, Step.tally]
    rw [Step.judge_fst]

/-- A step that calls is determined by the answer it gets. -/
theorem Step.run_of_call (client : Client σ) {step : Step} {call : Call}
    (hcall : step.call? = some call) (outcome : Outcome) (state : σ) :
    step.run client outcome state =
      { verdict := verdictOf (step.objection? (client.answer call state).1)
        outcome := step.tally outcome (client.answer call state).1
        state := (client.answer call state).2
        events := [.called call (client.answer call state).1] } := by
  cases step with
  | write key value =>
    cases hcall
    rw [Client.answer_set, Step.run]
    generalize client.set key value state = got
    rcases got with ⟨failure | stored, next⟩
    · rfl
    · rfl
  | expect key value =>
    cases hcall
    exact Step.read_eq client (.expect key value) key outcome state
  | absent key =>
    cases hcall
    exact Step.read_eq client (.absent key) key outcome state
  | observe key =>
    cases hcall
    exact Step.read_eq client (.observe key) key outcome state
  | pause milliseconds key => cases hcall
  | forget => cases hcall

/-- A step that does not call leaves the client and the counts alone. -/
theorem Step.run_of_silent (client : Client σ) {step : Step} (hcall : step.call? = none)
    (outcome : Outcome) (state : σ) :
    (step.run client outcome state).verdict = .ok () ∧
      (step.run client outcome state).state = state ∧
      (step.run client outcome state).exchanges = [] ∧
      (step.run client outcome state).outcome.writes = outcome.writes ∧
      (step.run client outcome state).outcome.reads = outcome.reads := by
  cases step with
  | pause milliseconds key => exact ⟨rfl, rfl, rfl, rfl, rfl⟩
  | forget => exact ⟨rfl, rfl, rfl, rfl, rfl⟩
  | write key value => cases hcall
  | expect key value => cases hcall
  | absent key => cases hcall
  | observe key => cases hcall

/-- A check and the steps it is made of judge a value in the same way. -/
theorem complaint?_of_mem_steps {check : Check} {step : Step} {key : String}
    (hstep : step ∈ check.steps) (hcall : step.call? = some (.get key)) :
    step.complaint? = check.complaint? key := by
  cases check with
  | roundTrip own value =>
    simp only [steps, List.mem_cons, List.not_mem_nil, or_false] at hstep
    rcases hstep with rfl | rfl
    · cases hcall
    · cases hcall
      rfl
  | delayed own value milliseconds =>
    simp only [steps, List.mem_cons, List.not_mem_nil, or_false] at hstep
    rcases hstep with rfl | rfl | rfl
    · cases hcall
    · cases hcall
    · cases hcall
      rfl
  | missing own =>
    simp only [steps, List.mem_singleton] at hstep
    subst hstep
    cases hcall
    rfl
  | probe own =>
    simp only [steps, List.mem_singleton] at hstep
    subst hstep
    cases hcall
    rfl
  | bulk stem count =>
    simp only [steps, List.mem_append, List.mem_map, List.mem_singleton] at hstep
    rcases hstep with (⟨own, -, rfl⟩ | ⟨own, -, rfl⟩) | rfl
    · cases hcall
    · cases hcall
      rfl
    · cases hcall

/-- A failed write is reported as it is, whoever reads the answer. -/
theorem objection?_stored (first second : Option String → Option Failure)
    (result : Except Failure Unit) :
    (Answer.stored result).objection? first = (Answer.stored result).objection? second := by
  cases result <;> rfl

theorem objection?_of_mem_steps (client : Client σ) {check : Check} {step : Step} {call : Call}
    (hstep : step ∈ check.steps) (hcall : step.call? = some call) (state : σ) :
    step.objection? (client.answer call state).1 =
      check.objection? ⟨call, (client.answer call state).1⟩ := by
  cases call with
  | set key value => exact objection?_stored _ _ _
  | get key =>
    rw [Step.objection?, Check.objection?, complaint?_of_mem_steps hstep hcall, Call.key]

/-! ### Runs of steps -/

theorem runSteps_of_silent (client : Client σ) {step : Step} (rest : List Step)
    (outcome : Outcome) (state : σ) (hcall : step.call? = none) :
    let later := runSteps client rest (step.run client outcome state).outcome state
    (runSteps client (step :: rest) outcome state).verdict = later.verdict ∧
      (runSteps client (step :: rest) outcome state).outcome = later.outcome ∧
      (runSteps client (step :: rest) outcome state).state = later.state ∧
      (runSteps client (step :: rest) outcome state).exchanges = later.exchanges := by
  obtain ⟨hverdict, hstate, hexchanges, -, -⟩ :=
    Step.run_of_silent client hcall outcome state
  simp only [runSteps, hverdict, hstate, true_and]
  rw [Progress.exchanges, List.filterMap_append, ← Progress.exchanges, hexchanges,
    List.nil_append, Progress.exchanges]

theorem runSteps_of_call (client : Client σ) {step : Step} {call : Call} (rest : List Step)
    (outcome : Outcome) (state : σ) (hcall : step.call? = some call) :
    runSteps client (step :: rest) outcome state =
      let (answer, next) := client.answer call state
      match step.objection? answer with
      | some failure =>
        ⟨.error failure, step.tally outcome answer, next, [.called call answer]⟩
      | none =>
        let later := runSteps client rest (step.tally outcome answer) next
        { later with events := .called call answer :: later.events } := by
  simp only [runSteps, Step.run_of_call client hcall]
  cases step.objection? (client.answer call state).1 with
  | none => rfl
  | some failure => rfl

theorem runSteps_append (client : Client σ) (first second : List Step) (outcome : Outcome)
    (state : σ) :
    runSteps client (first ++ second) outcome state =
      let now := runSteps client first outcome state
      match now.verdict with
      | .error _ => now
      | .ok () =>
        let later := runSteps client second now.outcome now.state
        { later with events := now.events ++ later.events } := by
  induction first generalizing outcome state with
  | nil => rfl
  | cons step rest ih =>
    simp only [List.cons_append, runSteps]
    cases hstep : (step.run client outcome state).verdict with
    | error failure => simp only [hstep]
    | ok done =>
      simp only [ih]
      generalize runSteps client rest (step.run client outcome state).outcome
        (step.run client outcome state).state = later
      rcases later with ⟨failure | done, counts, left, events⟩
      · rfl
      · simp only [List.append_assoc]

/-- What a run of steps has to do with the calls they make: the exchanges are those of the calls
up to the first bad one, the verdict is what is said of the last exchange, and the counts are those
of the answers. -/
structure Traces (client : Client σ) (check : Check) (calls : List Call) (outcome : Outcome)
    (state : σ) (progress : Progress σ) : Prop where
  exchanges_eq : progress.exchanges = upTo check.isBad (client.exchanges calls state)
  state_eq : progress.state = client.after progress.calls state
  verdict_eq : progress.verdict = verdictOf (progress.exchanges.getLast?.bind check.objection?)
  writes_eq : progress.outcome.writes =
    outcome.writes + progress.exchanges.countP Exchange.isWrite
  reads_eq : progress.outcome.reads = outcome.reads + progress.exchanges.countP Exchange.isRead

theorem Step.tally_writes (step : Step) (outcome : Outcome) (call : Call) (answer : Answer) :
    (step.tally outcome answer).writes =
      outcome.writes + [Exchange.mk call answer].countP Exchange.isWrite := by
  rcases answer with (failure | stored) | (failure | actual)
  · rfl
  · rfl
  · rfl
  · cases step <;> simp [Step.tally, Step.judge, Exchange.isWrite]
    all_goals split <;> rfl

theorem Step.tally_reads (step : Step) (outcome : Outcome) (call : Call) (answer : Answer) :
    (step.tally outcome answer).reads =
      outcome.reads + [Exchange.mk call answer].countP Exchange.isRead := by
  rcases answer with (failure | stored) | (failure | actual)
  · rfl
  · rfl
  · rfl
  · cases step <;> simp [Step.tally, Step.judge, Exchange.isRead]
    all_goals split <;> rfl

/-- A call that is answered badly ends the run. -/
theorem traces_of_bad (client : Client σ) {check : Check} (step : Step) (call : Call)
    (rest : List Call) (outcome : Outcome) (state : σ) {failure : Failure}
    (hbad : check.objection? ⟨call, (client.answer call state).1⟩ = some failure) :
    Traces client check (call :: rest) outcome state
      ⟨.error failure, step.tally outcome (client.answer call state).1,
        (client.answer call state).2, [.called call (client.answer call state).1]⟩ where
  exchanges_eq := by
    rw [Client.exchanges, upTo_cons_of_pos _ (by rw [isBad, hbad]; rfl)]
    rfl
  state_eq := rfl
  verdict_eq := by
    change Except.error failure = verdictOf (check.objection? ⟨call, (client.answer call state).1⟩)
    rw [hbad, verdictOf]
  writes_eq := Step.tally_writes step outcome call _
  reads_eq := Step.tally_reads step outcome call _

/-- A call that is answered well goes in front of the run that follows it. -/
theorem Traces.cons {client : Client σ} {check : Check} {step : Step} {call : Call}
    {rest : List Call} {outcome : Outcome} {state : σ} {later : Progress σ}
    (hgood : check.objection? ⟨call, (client.answer call state).1⟩ = none)
    (hlater : Traces client check rest (step.tally outcome (client.answer call state).1)
      (client.answer call state).2 later) :
    Traces client check (call :: rest) outcome state
      { later with events := .called call (client.answer call state).1 :: later.events } where
  exchanges_eq := by
    rw [Client.exchanges, upTo_cons_of_neg _ (by rw [isBad, hgood]; rfl), ← hlater.exchanges_eq]
    rfl
  state_eq := hlater.state_eq
  verdict_eq := by
    change later.verdict = verdictOf
      ((Exchange.mk call (client.answer call state).1 :: later.exchanges).getLast?.bind
        check.objection?)
    rw [hlater.verdict_eq, List.getLast?_cons]
    cases later.exchanges.getLast? with
    | none => simp [hgood]
    | some last => rfl
  writes_eq := by
    change later.outcome.writes = outcome.writes +
      ([Exchange.mk call (client.answer call state).1] ++ later.exchanges).countP Exchange.isWrite
    rw [hlater.writes_eq, Step.tally_writes step outcome call, List.countP_append, Nat.add_assoc]
  reads_eq := by
    change later.outcome.reads = outcome.reads +
      ([Exchange.mk call (client.answer call state).1] ++ later.exchanges).countP Exchange.isRead
    rw [hlater.reads_eq, Step.tally_reads step outcome call, List.countP_append, Nat.add_assoc]

theorem runSteps_traces (client : Client σ) (check : Check) {steps : List Step}
    (hsteps : ∀ step ∈ steps, step ∈ check.steps) (outcome : Outcome) (state : σ) :
    Traces client check (steps.filterMap Step.call?) outcome state
      (runSteps client steps outcome state) := by
  induction steps generalizing outcome state with
  | nil => exact ⟨rfl, rfl, rfl, rfl, rfl⟩
  | cons step rest ih =>
    have hrest : ∀ other ∈ rest, other ∈ check.steps := fun other hother ↦
      hsteps other (List.mem_cons_of_mem step hother)
    cases hcall : step.call? with
    | none =>
      obtain ⟨hverdict, houtcome, hstate, hexchanges⟩ :=
        runSteps_of_silent client rest outcome state hcall
      obtain ⟨-, -, -, hwrites, hreads⟩ := Step.run_of_silent client hcall outcome state
      have hlater := ih hrest (step.run client outcome state).outcome state
      have hcalls : (runSteps client (step :: rest) outcome state).calls =
          (runSteps client rest (step.run client outcome state).outcome state).calls :=
        congrArg (List.map Exchange.call) hexchanges
      rw [List.filterMap_cons_none hcall]
      exact
        { exchanges_eq := hexchanges.trans hlater.exchanges_eq
          state_eq := by rw [hstate, hcalls, hlater.state_eq]
          verdict_eq := by rw [hverdict, hexchanges, hlater.verdict_eq]
          writes_eq := by rw [houtcome, hexchanges, hlater.writes_eq, hwrites]
          reads_eq := by rw [houtcome, hexchanges, hlater.reads_eq, hreads] }
    | some call =>
      have hobjection := objection?_of_mem_steps client (hsteps step List.mem_cons_self) hcall state
      rw [List.filterMap_cons_some hcall, runSteps_of_call client rest outcome state hcall]
      simp only [hobjection]
      cases hbad : check.objection? ⟨call, (client.answer call state).1⟩ with
      | none => exact (ih hrest _ _).cons hbad
      | some failure => exact traces_of_bad client step call _ outcome state hbad

/-! ### The value observed last -/

/-- What was read by the last of the exchanges that a check did not object to. -/
def lastGood (check : Check) (exchanges : List Exchange) (seen : Option String) : Option String :=
  (exchanges.filter fun exchange ↦ !check.isBad exchange).foldl Exchange.observe seen

/-- The steps that keep the value they read, and no other. -/
def Step.Notes : Step → Prop
  | .absent _ | .forget => False
  | _ => True

theorem Step.tally_observed (client : Client σ) {step : Step} {call : Call}
    (hnotes : step.Notes) (hcall : step.call? = some call) (outcome : Outcome) (state : σ) :
    (step.tally outcome (client.answer call state).1).observed =
      match step.objection? (client.answer call state).1 with
      | none => Exchange.observe outcome.observed ⟨call, (client.answer call state).1⟩
      | some _ => outcome.observed := by
  cases step with
  | write key value =>
    cases hcall
    rw [Client.answer_set]
    cases (client.set key value state).1 <;> rfl
  | expect key value =>
    cases hcall
    rw [Client.answer_get]
    rcases (client.get key state).1 with failure | actual
    · rfl
    · by_cases h : actual = some value <;>
        simp [Step.tally, Step.judge, Step.objection?, Answer.objection?, Step.complaint?,
          Exchange.observe, h]
  | observe key =>
    cases hcall
    rw [Client.answer_get]
    cases (client.get key state).1 <;> rfl
  | absent key => exact hnotes.elim
  | forget => exact hnotes.elim
  | pause milliseconds key => cases hcall

theorem observed_runSteps (client : Client σ) (check : Check) {steps : List Step}
    (hsteps : ∀ step ∈ steps, step ∈ check.steps ∧ step.Notes) (outcome : Outcome) (state : σ) :
    (runSteps client steps outcome state).outcome.observed =
      check.lastGood (runSteps client steps outcome state).exchanges outcome.observed := by
  induction steps generalizing outcome state with
  | nil => rfl
  | cons step rest ih =>
    obtain ⟨hstep, hnotes⟩ := hsteps step List.mem_cons_self
    have hrest : ∀ other ∈ rest, other ∈ check.steps ∧ other.Notes := fun other hother ↦
      hsteps other (List.mem_cons_of_mem step hother)
    cases hcall : step.call? with
    | none =>
      obtain ⟨-, houtcome, -, hexchanges⟩ := runSteps_of_silent client rest outcome state hcall
      rw [houtcome, hexchanges, ih hrest]
      cases step with
      | pause milliseconds key => rfl
      | forget => exact hnotes.elim
      | write key value => cases hcall
      | expect key value => cases hcall
      | absent key => cases hcall
      | observe key => cases hcall
    | some call =>
      have hobjection := objection?_of_mem_steps client hstep hcall state
      have htally := Step.tally_observed client hnotes hcall outcome state
      rw [runSteps_of_call client rest outcome state hcall]
      simp only [hobjection] at htally ⊢
      cases hbad : check.objection? ⟨call, (client.answer call state).1⟩ with
      | none =>
        simp only [hbad] at htally
        have hlater := ih hrest (step.tally outcome (client.answer call state).1)
          (client.answer call state).2
        simp only [Progress.exchanges, List.filterMap_cons, Event.exchange?] at hlater ⊢
        rw [hlater, htally]
        simp [lastGood, isBad, hbad]
      | some failure =>
        simp only [hbad] at htally
        simp [Progress.exchanges, Event.exchange?, lastGood, isBad, hbad, htally]

/-! ### Runs of checks -/

theorem run_traces (client : Client σ) (check : Check) (state : σ) :
    Traces client check check.plan {} state (check.run client state) := by
  rw [← filterMap_call?_steps]
  exact runSteps_traces client check (fun _step hstep ↦ hstep) {} state

/-- The steps of a bulk write before the last, which lets go of the value read. -/
def bulkBody (stem : String) (count : Nat) : List Step :=
  (bulkKeys stem count).map (fun key ↦ .write key key) ++
    (bulkKeys stem count).map (fun key ↦ .expect key key)

theorem notes_of_mem_bulkBody {stem : String} {count : Nat} {step : Step}
    (hstep : step ∈ bulkBody stem count) : step.Notes := by
  rcases List.mem_append.mp hstep with hwrite | hread
  · obtain ⟨key, -, rfl⟩ := List.mem_map.mp hwrite
    trivial
  · obtain ⟨key, -, rfl⟩ := List.mem_map.mp hread
    trivial

theorem run_bulk (client : Client σ) (stem : String) (count : Nat) (state : σ) :
    (bulk stem count).run client state =
      let now := runSteps client (bulkBody stem count) {} state
      match now.verdict with
      | .error _ => now
      | .ok () => { now with outcome := { now.outcome with observed := none } } := by
  change runSteps client (bulkBody stem count ++ [.forget]) {} state = _
  rw [runSteps_append]
  generalize runSteps client (bulkBody stem count) {} state = now
  rcases now with ⟨failure | done, counts, left, events⟩
  · rfl
  · simp [runSteps, Step.run]

/-- A run of a check that lets go of no value at the end keeps the one it read last. -/
theorem observed_run (client : Client σ) (check : Check) (state : σ)
    (hkeeps : (check.run client state).verdict = .ok () → ∀ stem count, check ≠ .bulk stem count) :
    (check.run client state).outcome.observed =
      check.lastGood (check.run client state).exchanges none := by
  cases check with
  | missing key =>
    unfold run steps
    rw [runSteps_of_call client [] {} state rfl, Client.answer_get]
    rcases (client.get key state).1 with failure | (none | actual) <;> rfl
  | bulk stem count =>
    rw [run_bulk] at hkeeps ⊢
    cases hverdict : (runSteps client (bulkBody stem count) {} state).verdict with
    | error failure =>
      simp only [hverdict]
      refine observed_runSteps client (bulk stem count) (fun step hstep ↦ ?_) {} state
      exact ⟨List.mem_append_left _ hstep, notes_of_mem_bulkBody hstep⟩
    | ok done =>
      simp only [hverdict] at hkeeps
      exact absurd rfl (hkeeps trivial stem count)
  | roundTrip key value =>
    refine observed_runSteps client (roundTrip key value) (fun step hstep ↦ ⟨hstep, ?_⟩) {} state
    simp only [steps, List.mem_cons, List.not_mem_nil, or_false] at hstep
    rcases hstep with rfl | rfl <;> trivial
  | delayed key value milliseconds =>
    refine observed_runSteps client (delayed key value milliseconds)
      (fun step hstep ↦ ⟨hstep, ?_⟩) {} state
    simp only [steps, List.mem_cons, List.not_mem_nil, or_false] at hstep
    rcases hstep with rfl | rfl | rfl <;> trivial
  | probe key =>
    refine observed_runSteps client (probe key) (fun step hstep ↦ ⟨hstep, ?_⟩) {} state
    rw [List.mem_singleton.mp hstep]
    trivial

theorem observed_run_bulk (client : Client σ) (stem : String) (count : Nat) (state : σ)
    (hok : ((bulk stem count).run client state).verdict = .ok ()) :
    ((bulk stem count).run client state).outcome.observed = none := by
  rw [run_bulk] at hok ⊢
  cases hverdict : (runSteps client (bulkBody stem count) {} state).verdict with
  | error failure =>
    simp only [hverdict] at hok
    cases hok
  | ok done => simp only [hverdict]

theorem Step.observed_expect (client : Client σ) {key value : String} {outcome : Outcome}
    {state : σ} (h : (Step.run client (.expect key value) outcome state).verdict = .ok ()) :
    (Step.run client (.expect key value) outcome state).outcome.observed = some value := by
  simp only [Step.run, Step.read] at h ⊢
  cases hread : (client.get key state).1 with
  | error failure =>
    rw [hread] at h
    cases h
  | ok actual =>
    rw [hread] at h
    by_cases hactual : actual = some value
    · simp [Step.judge, hactual]
    · simp [Step.judge, hactual] at h

/-- A value that the last step expects has been observed when nothing has failed. -/
theorem observed_of_expect (client : Client σ) (first : List Step) (key value : String)
    {outcome : Outcome} {state : σ}
    (h : (runSteps client (first ++ [.expect key value]) outcome state).verdict = .ok ()) :
    (runSteps client (first ++ [.expect key value]) outcome state).outcome.observed =
      some value := by
  rw [runSteps_append] at h ⊢
  generalize runSteps client first outcome state = now at h ⊢
  rcases now with ⟨failure | done, counts, left, events⟩
  · cases h
  · simp only [runSteps] at h ⊢
    cases hlast : (Step.run client (.expect key value) counts left).verdict with
    | error failure =>
      simp only [hlast] at h
      cases h
    | ok done =>
      simp only
      exact Step.observed_expect client hlast

theorem observed_missing (client : Client σ) (key : String) (state : σ) :
    ((missing key).run client state).outcome.observed = none := by
  simp only [run, steps, runSteps, Step.run, Step.read]
  rcases (client.get key state).1 with failure | (none | actual) <;> rfl

/-- What a run of a check is, in terms of its plan and of the answers of the client. -/
structure FollowsPlan (client : Client σ) (check : Check) (state : σ) (progress : Progress σ) :
    Prop where
  /-- The calls are the first ones of the plan, in order. -/
  calls_isPrefix : progress.calls <+: check.plan
  /-- Each is answered by the client, in the state that the calls before it left. -/
  exchanges_eq : progress.exchanges = client.exchanges progress.calls state
  state_eq : progress.state = client.after progress.calls state
  /-- No call follows a bad one. -/
  good_of_mem_dropLast :
    ∀ exchange ∈ progress.exchanges.dropLast, check.objection? exchange = none
  /-- Calls of the plan are left out only behind a bad one. -/
  complete_or_bad : progress.calls = check.plan ∨
    ∃ exchange failure, progress.exchanges.getLast? = some exchange ∧
      check.objection? exchange = some failure
  ok_iff : progress.verdict = .ok () ↔
    progress.calls = check.plan ∧
      ∀ exchange ∈ progress.exchanges, check.objection? exchange = none
  /-- The failure is what the check says of the last call. -/
  error_iff (failure : Failure) : progress.verdict = .error failure ↔
    ∃ exchange, progress.exchanges.getLast? = some exchange ∧
      check.objection? exchange = some failure
  writes_eq : progress.outcome.writes = progress.exchanges.countP Exchange.isWrite
  reads_eq : progress.outcome.reads = progress.exchanges.countP Exchange.isRead
  /-- A bulk write that passes lets go of the value that it read last. -/
  observed_of_bulk (stem : String) (count : Nat) : check = .bulk stem count →
    progress.verdict = .ok () → progress.outcome.observed = none
  observed_eq : (progress.verdict = .ok () → ∀ stem count, check ≠ .bulk stem count) →
    progress.outcome.observed = check.lastGood progress.exchanges none

theorem verdictOf_eq_ok_iff {objection : Option Failure} :
    verdictOf objection = .ok () ↔ objection = none := by
  cases objection <;> simp [verdictOf]

theorem verdictOf_eq_error_iff {objection : Option Failure} {failure : Failure} :
    verdictOf objection = .error failure ↔ objection = some failure := by
  cases objection <;> simp [verdictOf]

theorem isBad_eq_false_iff {check : Check} {exchange : Exchange} :
    check.isBad exchange = false ↔ check.objection? exchange = none := by
  simp [isBad]

theorem mem_dropLast_or_eq_last {exchanges : List Exchange} {exchange last : Exchange}
    (hlast : exchanges.getLast? = some last) (hmem : exchange ∈ exchanges) :
    exchange ∈ exchanges.dropLast ∨ exchange = last := by
  obtain ⟨others, rfl⟩ := List.getLast?_eq_some_iff.mp hlast
  rwa [List.dropLast_concat, ← List.mem_singleton, ← List.mem_append]

/-- The exchanges of a run leave no call of the plan out, unless the last of them is bad. -/
theorem calls_eq_plan_or_bad (client : Client σ) (check : Check) (state : σ) :
    (check.run client state).calls = check.plan ∨
      ∃ exchange failure, (check.run client state).exchanges.getLast? = some exchange ∧
        check.objection? exchange = some failure := by
  have htraces := run_traces client check state
  rcases upTo_eq_self_or_getLast? check.isBad (client.exchanges check.plan state) with
    hall | ⟨exchange, hlast, hbad⟩
  · left
    rw [Progress.calls, htraces.exchanges_eq, hall, Client.map_call_exchanges]
  · right
    obtain ⟨failure, hfailure⟩ := Option.isSome_iff_exists.mp hbad
    exact ⟨exchange, failure, by rw [htraces.exchanges_eq, hlast], hfailure⟩

/-- Every run of every check on every client follows the plan of the check. -/
theorem run_followsPlan (client : Client σ) (check : Check) (state : σ) :
    FollowsPlan client check state (check.run client state) := by
  have htraces := run_traces client check state
  have hprefix : (check.run client state).exchanges <+: client.exchanges check.plan state :=
    htraces.exchanges_eq ▸ upTo_isPrefix _ _
  have hgood : ∀ exchange ∈ (check.run client state).exchanges.dropLast,
      check.objection? exchange = none := by
    intro exchange hmem
    rw [htraces.exchanges_eq] at hmem
    exact isBad_eq_false_iff.mp (test_eq_false_of_mem_dropLast_upTo hmem)
  have herror (failure : Failure) : (check.run client state).verdict = .error failure ↔
      ∃ exchange, (check.run client state).exchanges.getLast? = some exchange ∧
        check.objection? exchange = some failure := by
    rw [htraces.verdict_eq, verdictOf_eq_error_iff, Option.bind_eq_some_iff]
  refine
    { calls_isPrefix := ?_
      exchanges_eq := client.exchanges_eq_of_isPrefix hprefix
      state_eq := htraces.state_eq
      good_of_mem_dropLast := hgood
      complete_or_bad := calls_eq_plan_or_bad client check state
      ok_iff := ⟨fun hok ↦ ⟨?_, ?_⟩, fun ⟨_, hall⟩ ↦ ?_⟩
      error_iff := herror
      writes_eq := by rw [htraces.writes_eq, Nat.zero_add]
      reads_eq := by rw [htraces.reads_eq, Nat.zero_add]
      observed_of_bulk := ?_
      observed_eq := observed_run client check state }
  · have h := hprefix.map Exchange.call
    rwa [Client.map_call_exchanges] at h
  · rcases calls_eq_plan_or_bad client check state with hcalls | ⟨exchange, failure, hlast, hbad⟩
    · exact hcalls
    · rw [(herror failure).mpr ⟨exchange, hlast, hbad⟩] at hok
      cases hok
  · intro exchange hmem
    rw [htraces.verdict_eq, verdictOf_eq_ok_iff] at hok
    obtain ⟨last, hlast⟩ := Option.isSome_iff_exists.mp
      (List.getLast?_isSome.mpr (List.ne_nil_of_mem hmem))
    rcases mem_dropLast_or_eq_last hlast hmem with hdrop | rfl
    · exact hgood exchange hdrop
    · rwa [hlast, Option.bind_some] at hok
  · rw [htraces.verdict_eq, verdictOf_eq_ok_iff, Option.bind_eq_none_iff]
    intro last hlast
    exact hall last (List.mem_of_getLast? hlast)
  · rintro stem count rfl
    exact observed_run_bulk client stem count state

end Check

end CacheCheck
