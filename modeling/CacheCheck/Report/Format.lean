import CacheCheck.Json
import CacheCheck.Report

/-!
The formats that reports can be written in: lines of text, which are a heading, a line per check and
a line of counts, and one JSON document, in which a check without a detail has no such member.
-/

set_option autoImplicit false

namespace CacheCheck

/-! ### Lines -/

namespace CheckReport

/-- The line of a check. -/
def line (check : CheckReport) : String :=
  "  " ++ check.status.mark ++ " " ++ check.name ++ " (" ++ check.elapsed.toFixed ++ "ms)" ++
    match check.detail with
    | some detail => ": " ++ detail
    | none => ""

end CheckReport

namespace SuiteReport

def heading (report : SuiteReport) : String :=
  report.suite ++ " @ " ++ report.target

def summary (report : SuiteReport) : String :=
  report.suite ++ ": " ++
    ", ".intercalate
      (Status.all.map fun status ↦ toString (report.count status) ++ " " ++ status.name)

/-- The lines of a report. -/
def lines (report : SuiteReport) : List String :=
  report.heading :: (report.checks.map CheckReport.line ++ [report.summary])

/-- Reports as text, each line ended. -/
def renderText (reports : List SuiteReport) : String :=
  String.join ((reports.flatMap lines).map (· ++ "\n"))

end SuiteReport

/-! ### Documents -/

def CheckReport.toJson (check : CheckReport) : Json :=
  .object <|
    [("name", .string check.name), ("status", .string check.status.name),
      ("elapsed_ms", .ofBinary64 check.elapsed), ("writes", .ofNat check.writes),
      ("reads", .ofNat check.reads)] ++
    match check.detail with
    | some detail => [("detail", .string detail)]
    | none => []

namespace SuiteReport

def toJson (report : SuiteReport) : Json :=
  .object
    [("backend", .string report.backend.name), ("suite", .string report.suite),
      ("target", .string report.target), ("checks", .array (report.checks.map CheckReport.toJson))]

/-- Reports as an indented document and a line end. -/
def renderJson (reports : List SuiteReport) : String :=
  (Json.array (reports.map toJson)).pretty ++ "\n"

end SuiteReport

/-! ### Formats by name -/

inductive Format
  | text
  | json
  deriving DecidableEq, Repr

namespace Format

def standard : Format := .text

def all : List Format := [.text, .json]

def name : Format → String
  | .text => "text"
  | .json => "json"

/-- Reads a format by name, exactly or in either case. -/
def parse (anyCase : Bool) (s : String) : Except String Format :=
  let same (name : String) : Bool :=
    if anyCase then asciiLower name = asciiLower s else name = s
  match all.find? (same ·.name) with
  | some format => .ok format
  | none => .error ("invalid variant: " ++ s)

/-- Reports in this format. -/
def render : Format → List SuiteReport → String
  | .text => SuiteReport.renderText
  | .json => SuiteReport.renderJson

end Format

end CacheCheck
