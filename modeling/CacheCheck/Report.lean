import CacheCheck.Backend
import CacheCheck.Number.Binary64

/-!
Reports of suites that were run: one entry per check, in order, and the counts of each status.
-/

set_option autoImplicit false

namespace CacheCheck

/-- How a check ended. A skipped check was not run, because an earlier one failed. -/
inductive Status
  | passed
  | failed
  | skipped
  deriving DecidableEq, Repr

def Status.all : List Status := [.passed, .failed, .skipped]

/-- The status in one word. -/
def Status.name : Status → String
  | .passed => "passed"
  | .failed => "failed"
  | .skipped => "skipped"

/-- The status as it stands in front of a line. -/
def Status.mark : Status → String
  | .passed => "PASS"
  | .failed => "FAIL"
  | .skipped => "SKIP"

/-- One check of a report. -/
structure CheckReport where
  name : String
  status : Status
  elapsed : Binary64 := .zero
  writes : Nat := 0
  reads : Nat := 0
  detail : Option String := none
  deriving DecidableEq, Repr

def CheckReport.skipped (name : String) : CheckReport :=
  { name, status := .skipped }

/-- The entry, with no time taken. -/
def CheckReport.untimed (check : CheckReport) : CheckReport :=
  { check with elapsed := .zero }

/-- One suite, run against one target. -/
structure SuiteReport where
  backend : Backend
  suite : String
  target : String
  checks : List CheckReport
  deriving DecidableEq, Repr

namespace SuiteReport

def count (report : SuiteReport) (status : Status) : Nat :=
  report.checks.countP (·.status = status)

/-- Every check was run and none failed. -/
def isSuccess (report : SuiteReport) : Bool :=
  report.count .failed = 0 && report.count .skipped = 0

def firstFailure? (report : SuiteReport) : Option CheckReport :=
  report.checks.find? (·.status = .failed)

/-- The report, with no time taken: what depends on the checks and the client alone. -/
def untimed (report : SuiteReport) : SuiteReport :=
  { report with checks := report.checks.map CheckReport.untimed }

end SuiteReport

end CacheCheck
