import CacheCheck.Proofs.Exchange
import CacheCheck.Run

/-!
The two ways to run a suite, side by side. A run that keeps going executes every check on the state
that the checks before it left (`executions`). A run that stops executes the same checks up to and
including the first that fails (`executed`) and makes a skipped entry of each that is left
(`runChecks_eq`). What the two reports have in common,
and where they part, follows from that alone, for every client and every suite.
-/

set_option autoImplicit false

namespace CacheCheck

/-! ### Counting the first entry of a kind -/

section UpTo

variable {α : Type}

theorem countP_upTo (test : α → Bool) (entries : List α) :
    (upTo test entries).countP test = if entries.any test then 1 else 0 := by
  induction entries with
  | nil => rfl
  | cons a rest ih =>
    by_cases h : test a = true
    · simp [upTo, h]
    · simp [upTo, h, ih]

theorem find?_upTo (test : α → Bool) (entries : List α) :
    (upTo test entries).find? test = entries.find? test := by
  induction entries with
  | nil => rfl
  | cons a rest ih =>
    by_cases h : test a = true
    · simp [upTo, h]
    · simp [upTo, h, ih]

end UpTo

namespace Suite

variable {σ : Type}

/-! ### The checks that a run executes -/

/-- A check that was run, and how far it came. -/
structure Execution (σ : Type) where
  check : Check
  progress : Check.Progress σ

namespace Execution

/-- The entry of an execution in a report. -/
def entry (execution : Execution σ) : CheckReport :=
  execution.progress.report execution.check

def failed (execution : Execution σ) : Bool :=
  match execution.progress.verdict with
  | .ok () => false
  | .error _ => true

/-- The state that executions leave a client in. -/
def after (executions : List (Execution σ)) (state : σ) : σ :=
  executions.foldl (fun _ execution ↦ execution.progress.state) state

theorem failed_eq_false_iff {execution : Execution σ} :
    execution.failed = false ↔ execution.progress.verdict = .ok () := by
  unfold failed
  cases execution.progress.verdict <;> simp

@[simp] theorem entry_name (execution : Execution σ) :
    execution.entry.name = execution.check.name := rfl

theorem entry_status (execution : Execution σ) :
    execution.entry.status = if execution.failed then .failed else .passed := by
  unfold entry failed Check.Progress.report
  cases execution.progress.verdict <;> rfl

@[simp] theorem status_eq_failed_iff (execution : Execution σ) :
    execution.entry.status = .failed ↔ execution.failed = true := by
  rw [entry_status]
  cases execution.failed <;> simp

@[simp] theorem status_ne_skipped (execution : Execution σ) :
    execution.entry.status ≠ .skipped := by
  rw [entry_status]
  cases execution.failed <;> simp

end Execution

/-- Every check of a list, run on the state that the checks before it left. -/
def executions (client : Client σ) : List Check → σ → List (Execution σ)
  | [], _ => []
  | check :: rest, state =>
    ⟨check, check.run client state⟩ :: executions client rest (check.run client state).state

/-- The executions of a run: all of them, or those that end with the first failure. -/
def executed (client : Client σ) (onFailure : OnFailure) (checks : List Check) (state : σ) :
    List (Execution σ) :=
  match onFailure with
  | .keepGoing => executions client checks state
  | .stop => upTo Execution.failed (executions client checks state)

/-- The entries of checks that were not run. -/
def skippedEntries (checks : List Check) : List CheckReport :=
  checks.map fun check ↦ .skipped check.name

@[simp] theorem map_check_executions (client : Client σ) (checks : List Check) (state : σ) :
    (executions client checks state).map Execution.check = checks := by
  induction checks generalizing state with
  | nil => rfl
  | cons check rest ih => simp [executions, ih]

@[simp] theorem length_executions (client : Client σ) (checks : List Check) (state : σ) :
    (executions client checks state).length = checks.length := by
  rw [← List.length_map (f := Execution.check), map_check_executions]

theorem executed_isPrefix (client : Client σ) (onFailure : OnFailure) (checks : List Check)
    (state : σ) : executed client onFailure checks state <+: executions client checks state := by
  cases onFailure with
  | keepGoing => exact List.prefix_refl _
  | stop => exact upTo_isPrefix _ _

theorem length_executed_le (client : Client σ) (onFailure : OnFailure) (checks : List Check)
    (state : σ) : (executed client onFailure checks state).length ≤ checks.length := by
  rw [← length_executions client checks state]
  exact (executed_isPrefix client onFailure checks state).length_le

/-- An execution is that of one of the checks, in some state. -/
theorem exists_of_mem_executed {client : Client σ} {onFailure : OnFailure} {checks : List Check}
    {state : σ} {execution : Execution σ} (h : execution ∈ executed client onFailure checks state) :
    execution.check ∈ checks ∧
      ∃ before, execution = ⟨execution.check, execution.check.run client before⟩ := by
  replace h := (executed_isPrefix client onFailure checks state).subset h
  induction checks generalizing state with
  | nil => cases h
  | cons check rest ih =>
    rcases List.mem_cons.mp h with rfl | hrest
    · exact ⟨List.mem_cons_self, state, rfl⟩
    · obtain ⟨hmem, hbefore⟩ := ih hrest
      exact ⟨List.mem_cons_of_mem check hmem, hbefore⟩

/-- A run that leaves a check out executed one that failed. -/
theorem countP_executed_stop (client : Client σ) (checks : List Check) (state : σ)
    (h : (executed client .stop checks state).length < checks.length) :
    (executed client .stop checks state).countP Execution.failed = 1 := by
  rw [executed, countP_upTo]
  by_cases hany : (executions client checks state).any Execution.failed = true
  · rw [if_pos hany]
  · have hnone : ∀ execution ∈ executions client checks state, execution.failed = false := by
      simpa using hany
    rw [executed, upTo_eq_self_of_none hnone, length_executions] at h
    exact absurd h (Nat.lt_irrefl _)

/-- A run goes on behind a check exactly when it executes what follows. -/
theorem executed_cons (client : Client σ) (onFailure : OnFailure) (check : Check)
    (rest : List Check) (state : σ) :
    executed client onFailure (check :: rest) state =
      let execution : Execution σ := ⟨check, check.run client state⟩
      if execution.entry.status = .failed ∧ onFailure = .stop then [execution]
      else execution :: executed client onFailure rest execution.progress.state := by
  cases onFailure with
  | keepGoing => simp [executed, executions]
  | stop => by_cases h : Execution.failed ⟨check, check.run client state⟩ = true <;>
      simp [executed, executions, upTo, h]

/-! ### Runs as executions -/

/-- A run is its executions, with an entry for each check that it leaves out. -/
theorem runChecks_eq (client : Client σ) (onFailure : OnFailure) (checks : List Check)
    (state : σ) :
    runChecks client onFailure checks state =
      { checks := (executed client onFailure checks state).map Execution.entry ++
          skippedEntries (checks.drop (executed client onFailure checks state).length)
        state := Execution.after (executed client onFailure checks state) state
        events := (executed client onFailure checks state).flatMap fun execution ↦
          execution.progress.history client.backend execution.check } := by
  induction checks generalizing state with
  | nil => cases onFailure <;> rfl
  | cons check rest ih =>
    rw [runChecks, executed_cons]
    by_cases h : ((check.run client state).report check).status = .failed ∧ onFailure = .stop
    · simp [Execution.entry, Execution.after, skippedEntries, h]
    · simp [Execution.entry, Execution.after, h, ih]

theorem runChecks_keepGoing_checks (client : Client σ) (checks : List Check) (state : σ) :
    (runChecks client .keepGoing checks state).checks =
      (executions client checks state).map Execution.entry := by
  rw [runChecks_eq, executed, length_executions, List.drop_length]
  exact List.append_nil _

theorem runChecks_state (client : Client σ) (onFailure : OnFailure) (checks : List Check)
    (state : σ) :
    (runChecks client onFailure checks state).state =
      Execution.after (executed client onFailure checks state) state := by
  rw [runChecks_eq]

/-- The exchanges of a run, in order. -/
def Run.exchanges (run : Run σ) : List Exchange :=
  run.events.filterMap Event.exchange?

theorem filterMap_exchange?_history (execution : Execution σ) (backend : Backend) :
    (execution.progress.history backend execution.check).filterMap Event.exchange? =
      execution.progress.exchanges := by
  unfold Check.Progress.history Check.Progress.exchanges
  cases execution.progress.verdict <;> simp [List.filterMap_cons, Event.exchange?]

theorem runChecks_exchanges (client : Client σ) (onFailure : OnFailure) (checks : List Check)
    (state : σ) :
    (runChecks client onFailure checks state).exchanges =
      (executed client onFailure checks state).flatMap fun execution ↦
        execution.progress.exchanges := by
  rw [Run.exchanges, runChecks_eq, List.filterMap_flatMap]
  simp only [filterMap_exchange?_history]

theorem map_name_runChecks (client : Client σ) (onFailure : OnFailure) (checks : List Check)
    (state : σ) :
    (runChecks client onFailure checks state).checks.map CheckReport.name =
      checks.map Check.name := by
  have hprefix := (executed_isPrefix client onFailure checks state).map Execution.check
  rw [map_check_executions] at hprefix
  have htake := List.prefix_iff_eq_take.mp hprefix
  rw [List.length_map] at htake
  have hnames : (executed client onFailure checks state).map (fun e ↦ e.entry.name) =
      (checks.take (executed client onFailure checks state).length).map Check.name := by
    rw [← htake, List.map_map]
    rfl
  rw [runChecks_eq, List.map_append, List.map_map, skippedEntries, List.map_map]
  change (executed client onFailure checks state).map (fun e ↦ e.entry.name) ++
    (checks.drop _).map Check.name = _
  rw [hnames, ← List.map_append, List.take_append_drop]

/-! ### Counts -/

theorem countP_entry (executions : List (Execution σ)) :
    (executions.map Execution.entry).countP (·.status = .failed) =
      executions.countP Execution.failed := by
  rw [List.countP_map]
  congr 1
  funext execution
  simp

theorem countP_entry_skipped (executions : List (Execution σ)) :
    (executions.map Execution.entry).countP (·.status = .skipped) = 0 := by
  rw [List.countP_eq_zero]
  simp

theorem countP_skippedEntries (checks : List Check) :
    (skippedEntries checks).countP (·.status = .skipped) = checks.length := by
  rw [skippedEntries, List.countP_map, List.countP_eq_length.mpr]
  simp [CheckReport.skipped]

theorem countP_skippedEntries_failed (checks : List Check) :
    (skippedEntries checks).countP (·.status = .failed) = 0 := by
  rw [List.countP_eq_zero]
  simp [skippedEntries, CheckReport.skipped]

theorem sum_count (report : SuiteReport) :
    report.count .passed + report.count .failed + report.count .skipped =
      report.checks.length := by
  unfold SuiteReport.count
  induction report.checks with
  | nil => rfl
  | cons entry rest ih =>
    cases h : entry.status <;> simp [h] <;> omega

/-- The report of a run. -/
def runReport (suite : Suite) (client : Client σ) (target : String) (onFailure : OnFailure)
    (state : σ) : SuiteReport :=
  suite.report client.backend target (suite.run client onFailure state).checks

theorem runReport_checks (suite : Suite) (client : Client σ) (target : String)
    (onFailure : OnFailure) (state : σ) :
    (suite.runReport client target onFailure state).checks =
      (executed client onFailure suite.checks state).map Execution.entry ++
        skippedEntries
          (suite.checks.drop (executed client onFailure suite.checks state).length) := by
  rw [runReport, report, run, runChecks_eq]

theorem count_failed (suite : Suite) (client : Client σ) (target : String)
    (onFailure : OnFailure) (state : σ) :
    (suite.runReport client target onFailure state).count .failed =
      (executed client onFailure suite.checks state).countP Execution.failed := by
  rw [SuiteReport.count, runReport_checks, List.countP_append, countP_entry,
    countP_skippedEntries_failed, Nat.add_zero]

theorem count_skipped (suite : Suite) (client : Client σ) (target : String)
    (onFailure : OnFailure) (state : σ) :
    (suite.runReport client target onFailure state).count .skipped =
      suite.checks.length - (executed client onFailure suite.checks state).length := by
  rw [SuiteReport.count, runReport_checks, List.countP_append, countP_entry_skipped,
    countP_skippedEntries, Nat.zero_add, List.length_drop]

/-- When no check fails, both runs execute all of them. -/
theorem executed_eq_of_none_failed (client : Client σ) (onFailure : OnFailure)
    (checks : List Check) (state : σ)
    (h : ∀ execution ∈ executed client onFailure checks state, execution.failed = false) :
    executed client onFailure checks state = executions client checks state := by
  cases onFailure with
  | keepGoing => rfl
  | stop =>
    rcases upTo_eq_self_or_getLast? Execution.failed (executions client checks state) with
      hall | ⟨last, hlast, hfailed⟩
    · exact hall
    · have hgood := h last (List.mem_of_getLast? hlast)
      rw [hgood] at hfailed
      cases hfailed

theorem isSuccess_iff (suite : Suite) (client : Client σ) (target : String)
    (onFailure : OnFailure) (state : σ) :
    (suite.runReport client target onFailure state).isSuccess = true ↔
      ∀ execution ∈ executed client onFailure suite.checks state,
        execution.progress.verdict = .ok () := by
  simp only [← Execution.failed_eq_false_iff]
  rw [SuiteReport.isSuccess, Bool.and_eq_true, decide_eq_true_iff, decide_eq_true_iff,
    count_failed, count_skipped, List.countP_eq_zero]
  constructor
  · intro h execution hmem
    simpa using h.1 execution hmem
  · intro h
    refine ⟨fun execution hmem ↦ by simp [h execution hmem], ?_⟩
    rw [executed_eq_of_none_failed client onFailure suite.checks state h, length_executions,
      Nat.sub_self]

theorem firstFailure?_runReport (suite : Suite) (client : Client σ) (target : String)
    (onFailure : OnFailure) (state : σ) :
    (suite.runReport client target onFailure state).firstFailure? =
      ((executions client suite.checks state).find? Execution.failed).map Execution.entry := by
  have hskipped (checks : List Check) :
      (skippedEntries checks).find? (·.status = .failed) = none := by
    rw [List.find?_eq_none]
    simp [skippedEntries, CheckReport.skipped]
  have htest : (fun entry : CheckReport ↦ decide (entry.status = .failed)) ∘ Execution.entry =
      Execution.failed (σ := σ) := by
    funext execution
    simp
  rw [SuiteReport.firstFailure?, runReport_checks, List.find?_append, hskipped, Option.or_none,
    List.find?_map, htest]
  cases onFailure with
  | keepGoing => rfl
  | stop => rw [executed, find?_upTo]

theorem executions_take (client : Client σ) (checks : List Check) (state : σ) (count : Nat) :
    executions client (checks.take count) state = (executions client checks state).take count := by
  induction checks generalizing state count with
  | nil => simp [executions]
  | cons check rest ih =>
    cases count with
    | zero => rfl
    | succ count => simp [executions, ih]

/-- The first executions of a run that stops are those of a run that keeps going on as many
checks. -/
theorem executed_stop_eq (client : Client σ) (checks : List Check) (state : σ) :
    executed client .stop checks state =
      executed client .keepGoing (checks.take (executed client .stop checks state).length) state := by
  have htake := List.prefix_iff_eq_take.mp (executed_isPrefix client .stop checks state)
  exact htake.trans (executions_take client checks state _).symm

theorem runChecks_stop_eq (client : Client σ) (checks : List Check) (state : σ) :
    let count := (executed client .stop checks state).length
    runChecks client .stop checks state =
      { runChecks client .keepGoing (checks.take count) state with
        checks := (runChecks client .keepGoing (checks.take count) state).checks ++
          skippedEntries (checks.drop count) } := by
  intro count
  have hexecuted := executed_stop_eq client checks state
  ext1
  · rw [runChecks_eq, runChecks_keepGoing_checks]
    exact congrArg (fun first ↦ first.map Execution.entry ++ skippedEntries (checks.drop count))
      hexecuted
  · rw [runChecks_state, runChecks_state, hexecuted]
  · rw [runChecks_eq, runChecks_eq, hexecuted]

theorem upTo_failed_entries (executions : List (Execution σ)) :
    upTo (fun entry ↦ entry.status = .failed) (executions.map Execution.entry) =
      (upTo Execution.failed executions).map Execution.entry := by
  rw [upTo_map]
  congr 2
  funext execution
  simp

/-- How the reports of the two runs of a suite compare. -/
structure PartAtFirstFailure (suite : Suite) (client : Client σ) (target : String) (state : σ) :
    Prop where
  /-- One entry for each check, in order. -/
  names (onFailure : OnFailure) :
    (suite.runReport client target onFailure state).checks.map CheckReport.name =
      suite.checks.map Check.name
  /-- A run that keeps going is its executions, one after the other, and skips nothing. -/
  keepGoing_checks : (suite.runReport client target .keepGoing state).checks =
    (executions client suite.checks state).map Execution.entry
  keepGoing_state : (suite.run client .keepGoing state).state =
    Execution.after (executions client suite.checks state) state
  keepGoing_exchanges : (suite.run client .keepGoing state).exchanges =
    (executions client suite.checks state).flatMap fun execution ↦ execution.progress.exchanges
  keepGoing_status : ∀ entry ∈ (suite.runReport client target .keepGoing state).checks,
    entry.status ≠ .skipped
  /-- A run that stops has the same entries up to the first failure, and skips what is left. -/
  stop_checks : (suite.runReport client target .stop state).checks =
    upTo (fun entry ↦ entry.status = .failed)
        (suite.runReport client target .keepGoing state).checks ++
      skippedEntries (suite.checks.drop (upTo (fun entry ↦ entry.status = .failed)
        (suite.runReport client target .keepGoing state).checks).length)
  /-- It leaves the client as the check that failed first left it, and makes no further call. -/
  stop_state : (suite.run client .stop state).state =
    Execution.after (upTo Execution.failed (executions client suite.checks state)) state
  stop_exchanges : (suite.run client .stop state).exchanges =
    (upTo Execution.failed (executions client suite.checks state)).flatMap fun execution ↦
      execution.progress.exchanges
  /-- So it is a run that keeps going, on the checks up to that one, and entries for the others. -/
  stop_run : ∃ count, count ≤ suite.checks.length ∧
    suite.run client .stop state =
      { runChecks client .keepGoing (suite.checks.take count) state with
        checks := (runChecks client .keepGoing (suite.checks.take count) state).checks ++
          skippedEntries (suite.checks.drop count) }
  count_sum (onFailure : OnFailure) :
    (suite.runReport client target onFailure state).count .passed +
        (suite.runReport client target onFailure state).count .failed +
        (suite.runReport client target onFailure state).count .skipped =
      suite.checks.length
  count_failed_of_skipped (onFailure : OnFailure) :
    0 < (suite.runReport client target onFailure state).count .skipped →
      (suite.runReport client target onFailure state).count .failed = 1
  firstFailure?_eq : (suite.runReport client target .stop state).firstFailure? =
    (suite.runReport client target .keepGoing state).firstFailure?
  isSuccess_iff (onFailure : OnFailure) :
    (suite.runReport client target onFailure state).isSuccess = true ↔
      ∀ execution ∈ executed client onFailure suite.checks state,
        execution.progress.verdict = .ok ()
  isSuccess_eq : (suite.runReport client target .stop state).isSuccess =
    (suite.runReport client target .keepGoing state).isSuccess

/-- The run that stops and the run that keeps going agree up to the first failure and in every
verdict on the whole, and part only behind it. -/
theorem run_partAtFirstFailure (suite : Suite) (client : Client σ) (target : String) (state : σ) :
    PartAtFirstFailure suite client target state := by
  have hkeep : (suite.runReport client target .keepGoing state).checks =
      (executions client suite.checks state).map Execution.entry :=
    runChecks_keepGoing_checks client suite.checks state
  refine
    { names := fun onFailure ↦ map_name_runChecks client onFailure suite.checks state
      keepGoing_checks := hkeep
      keepGoing_state := runChecks_state client .keepGoing suite.checks state
      keepGoing_exchanges := runChecks_exchanges client .keepGoing suite.checks state
      keepGoing_status := ?_
      stop_checks := ?_
      stop_state := runChecks_state client .stop suite.checks state
      stop_exchanges := runChecks_exchanges client .stop suite.checks state
      stop_run := ?_
      count_sum := fun onFailure ↦ ?_
      count_failed_of_skipped := fun onFailure hskipped ↦ ?_
      firstFailure?_eq := ?_
      isSuccess_iff := fun onFailure ↦ suite.isSuccess_iff client target onFailure state
      isSuccess_eq := ?_ }
  · rw [hkeep]
    intro entry hentry
    obtain ⟨execution, -, rfl⟩ := List.mem_map.mp hentry
    exact execution.status_ne_skipped
  · rw [hkeep, upTo_failed_entries, List.length_map, runReport_checks]
    rfl
  · exact ⟨_, length_executed_le client .stop suite.checks state,
      runChecks_stop_eq client suite.checks state⟩
  · have hlength := congrArg List.length
      (map_name_runChecks client onFailure suite.checks state)
    rw [List.length_map, List.length_map] at hlength
    rw [sum_count]
    exact hlength
  · rw [count_skipped] at hskipped
    rw [count_failed]
    cases onFailure with
    | keepGoing =>
      rw [executed, length_executions, Nat.sub_self] at hskipped
      exact absurd hskipped (Nat.lt_irrefl 0)
    | stop => exact countP_executed_stop client suite.checks state (by omega)
  · rw [firstFailure?_runReport, firstFailure?_runReport]
  · rw [Bool.eq_iff_iff, suite.isSuccess_iff, suite.isSuccess_iff]
    constructor
    · intro h
      have hall := executed_eq_of_none_failed client .stop suite.checks state fun e he ↦
        Execution.failed_eq_false_iff.mpr (h e he)
      rw [hall] at h
      exact h
    · exact fun h execution hmem ↦ h execution
        ((executed_isPrefix client .stop suite.checks state).subset hmem)

end Suite

end CacheCheck
