import Mathlib.Data.List.Forall2
import CacheCheck.Memory
import CacheCheck.Proofs.Check.Plan
import CacheCheck.Proofs.Suite.FirstFailure
import CacheCheck.Proofs.Text.OneLine
import CacheCheck.Report
import CacheCheck.Report.Format

/-!
The lines that reports are written in: for each report a heading, a line for each check, and a line
of counts, which are those of the lines above it (`Laid`). Reports are laid out so exactly when none
of these texts has a line end in it (`laid_iff`).

In a run of a default suite all of them but two kinds are safe whatever the client answers: the
names of the checks and the values that they expect have no line ends, and values that were read in
vain are quoted. What a probe reads, and what a client says of a failure of its own, stands on the
line as it was received (`Suite.Execution.received?`). So a server decides over the lines by these
alone (`renderText_laid_iff`), and by a value under a key that is probed it can make up a line
(`renderText_forged`).
-/

set_option autoImplicit false

namespace CacheCheck

/-! ### Reports as lines -/

/-- The status that a line is marked with. -/
def markOf? (line : String) : Option Status :=
  Status.all.find? fun status ↦ ("  " ++ status.mark ++ " ").toList.isPrefixOf line.toList

/-- How many lines are marked with a status. -/
def marked (status : Status) (lines : List String) : Nat :=
  lines.countP (markOf? · = some status)

/-- The lines of one report: a heading, an entry for each check in order, and a summary. -/
structure Block (report : SuiteReport) (heading : String) (entries : List String)
    (summary : String) : Prop where
  heading_eq : heading = report.suite ++ " @ " ++ report.target
  /-- Each entry is that of one check, and begins with its mark and its name. -/
  forall₂ : List.Forall₂
    (fun check entry ↦ ∃ more,
      entry = "  " ++ check.status.mark ++ " " ++ check.name ++ " (" ++ more)
    report.checks entries
  /-- The summary counts the entries above it by their marks. -/
  summary_eq : summary = report.suite ++ ": " ++ toString (marked .passed entries) ++ " passed, " ++
    toString (marked .failed entries) ++ " failed, " ++ toString (marked .skipped entries) ++
      " skipped"
  sum_eq : marked .passed entries + marked .failed entries + marked .skipped entries =
    report.checks.length

/-- The lines of reports, with nothing else among them and nothing behind the last line end. -/
inductive Laid : List SuiteReport → List String → Prop
  | nil : Laid [] [""]
  | cons {report : SuiteReport} {reports : List SuiteReport} {heading summary : String}
    {entries lines : List String} (hblock : Block report heading entries summary)
    (hlines : Laid reports lines) :
    Laid (report :: reports) (heading :: (entries ++ summary :: lines))

theorem exists_line_eq (check : CheckReport) :
    ∃ more, check.line = "  " ++ check.status.mark ++ " " ++ check.name ++ " (" ++ more := by
  refine ⟨check.elapsed.toFixed ++ "ms)" ++ (check.detail.map (": " ++ ·)).getD "", ?_⟩
  rw [CheckReport.line]
  cases check.detail <;> simp [String.append_assoc]

theorem markOf?_append (status : Status) (more : String) :
    markOf? ("  " ++ status.mark ++ " " ++ more) = some status := by
  cases status <;> simp [markOf?, Status.all, Status.mark]

theorem markOf?_line (check : CheckReport) : markOf? check.line = some check.status := by
  obtain ⟨more, hline⟩ := exists_line_eq check
  have hmark := markOf?_append check.status (check.name ++ " (" ++ more)
  simp only [String.append_assoc] at hline hmark
  rw [hline, hmark]

theorem marked_lines (status : Status) (report : SuiteReport) :
    marked status (report.checks.map CheckReport.line) = report.count status := by
  rw [marked, SuiteReport.count, List.countP_map]
  simp only [Function.comp_def, markOf?_line, Option.some.injEq]

theorem block_lines (report : SuiteReport) :
    Block report report.heading (report.checks.map CheckReport.line) report.summary where
  heading_eq := rfl
  forall₂ := by
    rw [List.forall₂_map_right_iff, List.forall₂_same]
    exact fun check _ ↦ exists_line_eq check
  summary_eq := by
    simp only [marked_lines]
    simp [SuiteReport.summary, Status.all, Status.name, String.append_assoc]
  sum_eq := by
    simp only [marked_lines]
    exact Suite.sum_count report

theorem Laid.length_eq {reports : List SuiteReport} {lines : List String} (h : Laid reports lines) :
    lines.length = (reports.flatMap SuiteReport.lines).length + 1 := by
  induction h with
  | nil => rfl
  | cons hblock _ ih =>
    have hentries := hblock.forall₂.length_eq
    rw [List.flatMap_cons, SuiteReport.lines]
    simp only [List.length_cons, List.length_append, List.length_map, List.length_nil, ih]
    omega

/-- Reports are laid out in lines exactly when each text of them is of one line. -/
theorem laid_iff (reports : List SuiteReport) :
    Laid reports (linesOf (SuiteReport.renderText reports)) ↔
      ∀ text ∈ reports.flatMap SuiteReport.lines, OneLine text := by
  rw [SuiteReport.renderText, linesOf_ended]
  constructor
  · -- A text with a line end makes two lines or more, so there would be too many of them.
    intro h
    have hlength := h.length_eq
    rw [List.length_append, List.length_singleton] at hlength
    exact oneLine_of_length_flatMap (by omega)
  · intro h
    rw [flatMap_linesOf h]
    -- From here on the texts are the lines, whatever they are.
    clear h
    induction reports with
    | nil => exact .nil
    | cons report reports ih =>
      have hlaid := Laid.cons (block_lines report) ih
      simpa [SuiteReport.lines] using hlaid

/-! ### Texts of a run -/

theorem Status.oneLine_mark (status : Status) : OneLine status.mark := by
  cases status <;> decide

theorem Backend.oneLine_name (backend : Backend) : OneLine backend.name := by
  cases backend <;> decide

/-- A verdict on what the server answered quotes it. -/
theorem Failure.oneLine_message {failure : Failure} (h : failure.isAssertion = true) :
    OneLine failure.message := by
  cases failure with
  | mismatch key expected actual =>
    have hread : OneLine (quoteRead actual) := by
      cases actual with
      | none => decide
      | some value => exact oneLine_quote value
    have hwords : OneLine "value mismatch for " ∧ OneLine ": expected " ∧ OneLine ", got " := by
      simp [OneLine]
    change OneLine ("value mismatch for " ++ quote key ++ ": expected " ++ quote expected ++
      ", got " ++ quoteRead actual)
    simp [hwords, hread]
  | unexpectedValue key actual =>
    have hwords : OneLine "expected " ∧ OneLine " to be absent, got " := by simp [OneLine]
    change OneLine ("expected " ++ quote key ++ " to be absent, got " ++ quote actual)
    simp [hwords]
  | configuration message => cases h
  | connection backend target cause => cases h
  | command backend cause => cases h

theorem CheckReport.oneLine_line_iff (check : CheckReport) :
    OneLine check.line ↔ OneLine check.name ∧ ∀ detail ∈ check.detail, OneLine detail := by
  have hfixed : OneLine "  " ∧ OneLine " " ∧ OneLine " (" ∧ OneLine "ms)" ∧ OneLine ": " := by
    simp [OneLine]
  simp only [line, oneLine_append, hfixed, check.status.oneLine_mark,
    oneLine_toFixed check.elapsed, true_and, and_true]
  cases check.detail with
  | none => simp [OneLine]
  | some detail => simp [hfixed]

theorem CheckReport.oneLine_line_untimed_iff (check : CheckReport) :
    OneLine check.line ↔ OneLine check.untimed.line := by
  rw [oneLine_line_iff, oneLine_line_iff]
  exact Iff.rfl

theorem SuiteReport.oneLine_summary {report : SuiteReport} (h : OneLine report.suite) :
    OneLine report.summary := by
  have hwords : OneLine " passed, " ∧ OneLine " failed, " ∧ OneLine " skipped" ∧ OneLine ": " := by
    simp [OneLine]
  rw [(block_lines report).summary_eq]
  simp only [oneLine_append, Nat.toString_eq_repr, oneLine_repr, hwords, h, and_self]

namespace Check

/-- Checks whose own texts are of one line. -/
def IsPlain : Check → Prop
  | roundTrip key value | delayed key value _ => OneLine key ∧ OneLine value
  | missing key | probe key => OneLine key
  | bulk stem _ => OneLine stem

theorem IsPlain.oneLine_name {check : Check} (h : check.IsPlain) : OneLine check.name := by
  have hwords : OneLine "set/get " ∧ OneLine " after " ∧ OneLine "ms" ∧ OneLine "missing " ∧
      OneLine "probe " ∧ OneLine "bulk " ∧ OneLine "* (empty)" ∧ OneLine ".." := by
    simp [OneLine]
  cases check with
  | roundTrip key value => simp [name, hwords, h.1]
  | delayed key value milliseconds => simp [name, hwords, h.1]
  | missing key =>
    have hkey : OneLine key := h
    simp [name, hwords, hkey]
  | probe key =>
    have hkey : OneLine key := h
    simp [name, hwords, hkey]
  | bulk stem count =>
    have hstem : OneLine stem := h
    cases count <;> simp [name, bulkKey, hwords, hstem]

theorem isPlain_of_mem_forBackend {backend : Backend} {options : Suite.Options}
    (hstem : OneLine options.bulkStem) {check : Check}
    (h : check ∈ (Suite.forBackend backend options).checks) : check.IsPlain := by
  cases backend with
  | redis =>
    simp only [Suite.forBackend, List.mem_cons, List.not_mem_nil, or_false] at h
    rcases h with rfl | rfl <;> simp [IsPlain, OneLine]
  | redisCluster =>
    simp only [Suite.forBackend, List.mem_cons, List.not_mem_nil, or_false] at h
    rcases h with rfl | rfl | rfl
    · simp [IsPlain, OneLine]
    · simp [IsPlain, OneLine]
    · exact hstem
  | memcached =>
    simp only [Suite.forBackend, List.mem_cons, List.not_mem_nil, or_false] at h
    rcases h with rfl | rfl | rfl | rfl | rfl | rfl <;> simp [IsPlain, OneLine]

end Check

namespace Suite

variable {σ : Type}

namespace Execution

/-- What stands on the line of an execution as it was received: the value that a probe read, or what
the client says of a failure that is no verdict on a value. -/
def received? (execution : Execution σ) : Option String :=
  match execution.progress.verdict, execution.check with
  | .error failure, _ => if failure.isAssertion then none else some failure.message
  | .ok (), .probe _ => execution.progress.outcome.observed
  | .ok (), _ => none

/-- What a report adds to the name of a plain check that passed is of one line exactly when what was
received for it is: but for a probe, nothing was, and nothing is added but what was expected. -/
theorem oneLine_detail_of_ok (client : Client σ) {check : Check} (hplain : check.IsPlain)
    {state : σ} (hok : (check.run client state).verdict = .ok ()) :
    (∀ detail ∈ check.detail (check.run client state).outcome, OneLine detail) ↔
      ∀ text ∈ received? ⟨check, check.run client state⟩, OneLine text := by
  cases check with
  | roundTrip key value =>
    have hobserved : ((Check.roundTrip key value).run client state).outcome.observed = some value :=
      Check.observed_of_expect client [.write key value] key value hok
    have hvalue : OneLine value := hplain.2
    simp [Check.detail, received?, hok, hobserved, hvalue]
  | delayed key value milliseconds =>
    have hobserved : ((Check.delayed key value milliseconds).run client state).outcome.observed =
        some value :=
      Check.observed_of_expect client [.write key value, .pause milliseconds key] key value hok
    have hvalue : OneLine value := hplain.2
    simp [Check.detail, received?, hok, hobserved, hvalue]
  | missing key =>
    have hnil : OneLine "(nil)" := by decide
    simp [Check.detail, received?, hok, Check.observed_missing, hnil]
  | probe key =>
    have hnil : OneLine "(nil)" := by decide
    cases hobserved : ((Check.probe key).run client state).outcome.observed <;>
      simp [Check.detail, received?, hok, hobserved, hnil]
  | bulk stem count =>
    have hkeys : OneLine " keys" := by decide
    simp [Check.detail, received?, hok, hkeys]

/-- The same of every plain check: a failure that is a verdict on a value quotes it. -/
theorem oneLine_detail_iff (client : Client σ) {check : Check} (hplain : check.IsPlain)
    (state : σ) :
    (∀ detail ∈ (entry ⟨check, check.run client state⟩).detail, OneLine detail) ↔
      ∀ text ∈ received? ⟨check, check.run client state⟩, OneLine text := by
  cases hverdict : (check.run client state).verdict with
  | ok done =>
    have hdetail : (entry ⟨check, check.run client state⟩).detail =
        check.detail (check.run client state).outcome := by
      simp [entry, Check.Progress.report, hverdict]
    rw [hdetail, oneLine_detail_of_ok client hplain hverdict]
  | error failure =>
    have hdetail : (entry ⟨check, check.run client state⟩).detail = some failure.message := by
      simp [entry, Check.Progress.report, hverdict]
    cases hassertion : failure.isAssertion with
    | true => simp [hdetail, received?, hverdict, hassertion, Failure.oneLine_message]
    | false => simp [hdetail, received?, hverdict, hassertion]

end Execution

/-- The entries of a suite of plain checks are of one line exactly when what was received in its run
is. -/
theorem oneLine_entries_iff (suite : Suite) (hplain : ∀ check ∈ suite.checks, check.IsPlain)
    (client : Client σ) (target : String) (onFailure : OnFailure) (state : σ) :
    (∀ check ∈ (suite.runReport client target onFailure state).checks, OneLine check.line) ↔
      ∀ execution ∈ executed client onFailure suite.checks state,
        ∀ text ∈ execution.received?, OneLine text := by
  have hskipped : ∀ check ∈ skippedEntries
      (suite.checks.drop (executed client onFailure suite.checks state).length),
        OneLine check.line := by
    intro entry hentry
    obtain ⟨check, hcheck, rfl⟩ := List.mem_map.mp hentry
    rw [CheckReport.oneLine_line_iff]
    exact ⟨(hplain check (List.mem_of_mem_drop hcheck)).oneLine_name, by simp [CheckReport.skipped]⟩
  have hentry (execution : Execution σ)
      (h : execution ∈ executed client onFailure suite.checks state) :
      OneLine execution.entry.line ↔ ∀ text ∈ execution.received?, OneLine text := by
    obtain ⟨hmem, before, hexecution⟩ := exists_of_mem_executed h
    have hcheck := hplain _ hmem
    rw [CheckReport.oneLine_line_iff, Execution.entry_name, and_iff_right hcheck.oneLine_name,
      hexecution]
    exact Execution.oneLine_detail_iff client hcheck before
  rw [runReport_checks, List.forall_mem_append, and_iff_left hskipped, List.forall_mem_map]
  exact forall₂_congr hentry

/-- A report of a default suite that was run on a client, with the times that its checks took. Its
target and the stem of its bulk keys are of one line. -/
structure DefaultRun : Type 1 where
  backend : Backend
  options : Options
  connected : Connected
  target : String
  onFailure : OnFailure
  report : SuiteReport
  untimed_report : report.untimed = (forBackend backend options).runReport connected.client target
    onFailure connected.state
  oneLine_stem : OneLine options.bulkStem
  oneLine_target : OneLine target

namespace DefaultRun

/-- The checks that were run. -/
def executed (run : DefaultRun) : List (Execution run.connected.State) :=
  Suite.executed run.connected.client run.onFailure (forBackend run.backend run.options).checks
    run.connected.state

/-- The lines of a report hold what was received in its run, and beyond that nothing with a line
end. -/
theorem oneLine_lines_iff (run : DefaultRun) :
    (∀ text ∈ run.report.lines, OneLine text) ↔
      ∀ execution ∈ run.executed, ∀ text ∈ execution.received?, OneLine text := by
  have hsuite : run.report.suite = run.backend.name :=
    congrArg SuiteReport.suite run.untimed_report
  have htarget : run.report.target = run.target :=
    congrArg SuiteReport.target run.untimed_report
  have hchecks : run.report.checks.map CheckReport.untimed =
      ((forBackend run.backend run.options).runReport run.connected.client run.target
        run.onFailure run.connected.state).checks :=
    congrArg SuiteReport.checks run.untimed_report
  have hname : OneLine run.report.suite := hsuite ▸ run.backend.oneLine_name
  have hheading : OneLine run.report.heading := by
    have hat : OneLine " @ " := by decide
    simp only [SuiteReport.heading, oneLine_append, hname, hat, htarget, run.oneLine_target,
      and_self]
  have hplain : ∀ check ∈ (forBackend run.backend run.options).checks, check.IsPlain :=
    fun check hcheck ↦ Check.isPlain_of_mem_forBackend run.oneLine_stem hcheck
  have hentries := oneLine_entries_iff _ hplain run.connected.client run.target run.onFailure
    run.connected.state
  rw [← hchecks, List.forall_mem_map] at hentries
  rw [executed, ← hentries, SuiteReport.lines, List.forall_mem_cons, List.forall_mem_append,
    List.forall_mem_map, List.forall_mem_singleton, and_iff_right hheading,
    and_iff_left (SuiteReport.oneLine_summary hname)]
  exact forall₂_congr fun check _ ↦ check.oneLine_line_untimed_iff

end DefaultRun

/-- Reports of default suites are laid out in lines exactly when the values that probes read and the
failures that clients speak of have no line ends. -/
theorem renderText_laid_iff (runs : List DefaultRun) :
    Laid (runs.map DefaultRun.report)
        (linesOf (SuiteReport.renderText (runs.map DefaultRun.report))) ↔
      ∀ run ∈ runs, ∀ execution ∈ run.executed, ∀ text ∈ execution.received?, OneLine text := by
  rw [laid_iff, List.flatMap_map, List.forall_mem_flatMap]
  exact forall₂_congr fun run _ ↦ run.oneLine_lines_iff

/-- A value under a key that is probed makes up a line: in the report of a run in which every check
passed there is one of a check that failed. -/
theorem renderText_forged :
    ∃ run : DefaultRun,
      run.connected = ⟨Memory.client .memcached,
        Memory.seed {} "test1" "x\n  FAIL set/get foo (0.00ms)"⟩ ∧
      (∀ check ∈ run.report.checks, check.status = .passed) ∧
      "  FAIL set/get foo (0.00ms)" ∈ linesOf (SuiteReport.renderText [run.report]) ∧
      ¬ Laid [run.report] (linesOf (SuiteReport.renderText [run.report])) := by
  let connected : Connected := ⟨Memory.client .memcached,
    Memory.seed {} "test1" "x\n  FAIL set/get foo (0.00ms)"⟩
  let report := (forBackend .memcached {}).runReport connected.client "127.0.0.1:11211" .stop
    connected.state
  refine ⟨⟨.memcached, {}, connected, "127.0.0.1:11211", .stop, report, rfl, ?_, ?_⟩, rfl, ?_, ?_,
    ?_⟩
  · decide
  · decide
  · decide
  · rw [SuiteReport.renderText, linesOf_ended]
    decide +kernel
  · rw [laid_iff]
    decide +kernel

end Suite

end CacheCheck
