import CacheCheck.CommandLine.Invocation
import CacheCheck.Network

/-!
A run of the program: every target is visited in turn, the reports of those that could be opened
are written, and the exit code tells how it went. A target that cannot be opened does not keep the
others from being visited.
-/

set_option autoImplicit false

namespace CacheCheck.Program

open CommandLine (Invocation)

/-- What a visit to one target leaves: its report, if it could be opened, and log lines. -/
structure Visit where
  report? : Option SuiteReport
  log : List LogLine
  deriving DecidableEq, Repr

/-- Visits a target. The error is that of an opening which was aborted. -/
def visit (connect : Target → Opening) (invocation : Invocation) (target : Target) :
    Except String Visit :=
  match connect target with
  | .aborted message => .error message
  | .failed failure => .ok ⟨none, [⟨.error, failure.message⟩]⟩
  | .ready ⟨client, state⟩ log =>
    let suite := Suite.forBackend target.backend invocation.options
    let run := suite.run client invocation.onFailure state
    .ok ⟨some (suite.report client.backend target.describe run.checks),
      log ++ run.events.flatMap (·.log client.announce)⟩

/-- What a run leaves. -/
structure Result where
  exitCode : Nat
  output : String
  log : List LogLine
  deriving DecidableEq, Repr

/-- The exit code of a run that was aborted. -/
def abortedCode : Nat := 101

/-- The exit code: 2 if a target could not be opened, else 1 if a check was not passed. -/
def exitCode (visits : List Visit) : Nat :=
  if visits.any (·.report?.isNone) then 2
  else if visits.all (·.report?.all (·.isSuccess)) then 0
  else 1

/-- What the visits to all targets amount to. -/
def conclude (format : Format) (visits : List Visit) : Result :=
  let code := exitCode visits
  { exitCode := code
    output := format.render (visits.filterMap (·.report?))
    log := visits.flatMap (·.log) ++ (if code = 0 then [⟨.info, "done"⟩] else []) }

/-- Runs the program. The error is that of the first opening which was aborted. -/
def run (connect : Target → Opening) (invocation : Invocation) : Except String Result :=
  (invocation.targets.mapM (visit connect invocation)).map (conclude invocation.format)

end CacheCheck.Program
