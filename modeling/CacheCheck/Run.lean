import CacheCheck.Report
import CacheCheck.Suite

/-!
Running a suite against a client. The checks run in order on one client; after the first failure
a run that stops early skips the rest without another call, and a run that keeps going does not.
-/

set_option autoImplicit false

namespace CacheCheck

/-- What becomes of a run after a check has failed. -/
inductive OnFailure
  | stop
  | keepGoing
  deriving DecidableEq, Repr

variable {σ : Type}

/-- The report entry of a check that was run. The time it took is left out. -/
def Check.Progress.report (progress : Check.Progress σ) (check : Check) : CheckReport where
  name := check.name
  status :=
    match progress.verdict with
    | .ok () => .passed
    | .error _ => .failed
  writes := progress.outcome.writes
  reads := progress.outcome.reads
  detail :=
    match progress.verdict with
    | .ok () => check.detail progress.outcome
    | .error failure => some failure.message

/-- The events of one check within a run. -/
def Check.Progress.history (progress : Check.Progress σ) (backend : Backend) (check : Check) :
    List Event :=
  .started backend check.name ::
    (progress.events ++
      match progress.verdict with
      | .ok () => []
      | .error failure => [.failed backend check.name failure])

namespace Suite

/-- The entries of a run, the client's state after it, and what happened. -/
@[ext] structure Run (σ : Type) where
  checks : List CheckReport
  state : σ
  events : List Event

/-- Runs checks in order. -/
def runChecks (client : Client σ) (onFailure : OnFailure) : List Check → σ → Run σ
  | [], state => ⟨[], state, []⟩
  | check :: rest, state =>
    let progress := check.run client state
    let entry := progress.report check
    let later : Run σ :=
      if entry.status = .failed ∧ onFailure = .stop then
        ⟨rest.map fun skipped ↦ .skipped skipped.name, progress.state, []⟩
      else runChecks client onFailure rest progress.state
    ⟨entry :: later.checks, later.state,
      progress.history client.backend check ++ later.events⟩

/-- The report that the entries of a run make. -/
def report (suite : Suite) (backend : Backend) (target : String) (checks : List CheckReport) :
    SuiteReport :=
  { backend, suite := suite.name, target, checks }

/-- Runs a suite. -/
def run (suite : Suite) (client : Client σ) (onFailure : OnFailure) (state : σ) : Run σ :=
  runChecks client onFailure suite.checks state

end Suite

end CacheCheck
