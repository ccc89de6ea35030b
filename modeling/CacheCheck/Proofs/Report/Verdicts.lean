import CacheCheck.Proofs.Suite.FirstFailure
import CacheCheck.Proofs.Text.Quoted

/-!
The text of a verdict on a value says which verdict it is. Each text of a failure begins with a
letter of its kind (`head?_message`), so verdicts of different kinds differ at once. Two of one kind
consist of the same words around quotations, and a quotation says where it ends; so the key, the
value that was expected and the one that was read are determined by the text, and a key that was
absent is told from any value, since it alone is not quoted (`message_eq_iff`).

A report shows this text as the detail of a failed entry. Entries of two reports, whatever suites
and clients they are of, have equal details only for equal failures, as soon as one of the two is a
verdict on a value (`detail_eq_iff`).
-/

set_option autoImplicit false

namespace CacheCheck

open Quoted (selfDelimiting_quote not_isControl_of_any not_isControl_of_mem_quote)

namespace Failure

/-! ### Texts of failures -/

/-- The letter that the text of a failure begins with. -/
def initial : Failure → Char
  | .configuration _ => 'i'
  | .connection _ _ _ => 'c'
  | .command .memcached _ => 'm'
  | .command _ _ => 'r'
  | .mismatch _ _ _ => 'v'
  | .unexpectedValue _ _ => 'e'

theorem message_mismatch (key expected : String) (actual : Option String) :
    (mismatch key expected actual).message =
      "value mismatch for " ++ quote key ++ ": expected " ++ quote expected ++ ", got " ++
        quoteRead actual := rfl

theorem message_unexpectedValue (key actual : String) :
    (unexpectedValue key actual).message =
      "expected " ++ quote key ++ " to be absent, got " ++ quote actual := rfl

theorem head?_message (failure : Failure) :
    failure.message.toList.head? = some failure.initial := by
  cases failure with
  | configuration text =>
    change ("invalid configuration: " ++ text).toList.head? = some 'i'
    simp
  | connection backend target cause =>
    change ("could not connect to " ++ backend.name ++ " at " ++ target ++ ": " ++
      cause.message).toList.head? = some 'c'
    simp
  | command backend cause =>
    change (backend.name ++ " command failed: " ++ cause.message).toList.head? = _
    cases backend <;> simp [Backend.name, initial]
  | mismatch key expected actual => simp [message_mismatch, initial]
  | unexpectedValue key actual => simp [message_unexpectedValue, initial]

theorem initial_eq_of_message_eq {failure failure' : Failure}
    (h : failure.message = failure'.message) : failure.initial = failure'.initial := by
  have hhead := failure.head?_message
  rw [h, failure'.head?_message] at hhead
  exact (Option.some.inj hhead).symm

/-- What was read is determined by how it is quoted; nil is no quotation. -/
theorem quoteRead_injective : Function.Injective quoteRead := by
  intro actual actual' h
  have hchars := congrArg String.toList h
  cases actual with
  | none =>
    cases actual' with
    | none => rfl
    | some value' =>
      simp only [quoteRead, Quoted.toList_quote] at hchars
      exact absurd (List.head_eq_of_cons_eq hchars) (by decide)
  | some value =>
    cases actual' with
    | none =>
      simp only [quoteRead, Quoted.toList_quote] at hchars
      exact absurd (List.head_eq_of_cons_eq hchars) (by decide)
    | some value' =>
      obtain ⟨rfl, -⟩ := selfDelimiting_quote value value' [] [] (congrArg (· ++ []) hchars)
      rfl

theorem mismatch_message_eq_iff {key key' expected expected' : String}
    {actual actual' : Option String} :
    (mismatch key expected actual).message = (mismatch key' expected' actual').message ↔
      key = key' ∧ expected = expected' ∧ actual = actual' := by
  constructor
  · intro h
    have hchars := congrArg String.toList h
    simp only [message_mismatch, String.toList_append, List.append_assoc] at hchars
    obtain ⟨hkey, hexpected⟩ := selfDelimiting_quote _ _ _ _ (List.append_cancel_left hchars)
    obtain ⟨hvalue, hread⟩ := selfDelimiting_quote _ _ _ _ (List.append_cancel_left hexpected)
    have hactual := String.toList_inj.mp (List.append_cancel_left hread)
    exact ⟨hkey, hvalue, quoteRead_injective hactual⟩
  · rintro ⟨rfl, rfl, rfl⟩
    rfl

theorem unexpectedValue_message_eq_iff {key key' actual actual' : String} :
    (unexpectedValue key actual).message = (unexpectedValue key' actual').message ↔
      key = key' ∧ actual = actual' := by
  constructor
  · intro h
    have hchars := congrArg (fun text ↦ String.toList text ++ []) h
    simp only [message_unexpectedValue, String.toList_append, List.append_assoc] at hchars
    obtain ⟨hkey, hrest⟩ := selfDelimiting_quote _ _ _ _ (List.append_cancel_left hchars)
    obtain ⟨hactual, -⟩ := selfDelimiting_quote _ _ _ _ (List.append_cancel_left hrest)
    exact ⟨hkey, hactual⟩
  · rintro ⟨rfl, rfl⟩
    rfl

/-- The text of a verdict on a value is that of no other failure. -/
theorem message_eq_iff {failure failure' : Failure} (hassertion : failure.isAssertion = true) :
    failure.message = failure'.message ↔ failure = failure' := by
  refine ⟨fun h ↦ ?_, congrArg message⟩
  have hinitial := initial_eq_of_message_eq h
  cases failure with
  | mismatch key expected actual =>
    cases failure' with
    | mismatch key' expected' actual' =>
      obtain ⟨rfl, rfl, rfl⟩ := mismatch_message_eq_iff.mp h
      rfl
    | command backend cause => cases backend <;> cases hinitial
    | _ => cases hinitial
  | unexpectedValue key actual =>
    cases failure' with
    | unexpectedValue key' actual' =>
      obtain ⟨rfl, rfl⟩ := unexpectedValue_message_eq_iff.mp h
      rfl
    | command backend cause => cases backend <;> cases hinitial
    | _ => cases hinitial
  | _ => cases hassertion

theorem not_isControl_of_mem_message {failure : Failure} (hassertion : failure.isAssertion = true)
    {c : Char} (h : c ∈ failure.message.toList) : ¬ IsControl c := by
  have hwords : ∀ word ∈ ["value mismatch for ", ": expected ", ", got ", "(nil)", "expected ",
      " to be absent, got "], ∀ c ∈ word.toList, ¬ IsControl c := by
    have hall : ∀ word ∈ ["value mismatch for ", ": expected ", ", got ", "(nil)", "expected ",
        " to be absent, got "], word.toList.any (fun c ↦ decide (IsControl c)) = false := by
      decide
    exact fun word hmem ↦ not_isControl_of_any (hall word hmem)
  cases failure with
  | mismatch key expected actual =>
    simp only [message_mismatch, String.toList_append, List.mem_append] at h
    rcases h with ((((hword | hkey) | hword) | hexpected) | hword) | hread
    · exact hwords "value mismatch for " (by simp) c hword
    · exact not_isControl_of_mem_quote hkey
    · exact hwords ": expected " (by simp) c hword
    · exact not_isControl_of_mem_quote hexpected
    · exact hwords ", got " (by simp) c hword
    · cases actual with
      | none => exact hwords "(nil)" (by simp) c hread
      | some value => exact not_isControl_of_mem_quote hread
  | unexpectedValue key actual =>
    simp only [message_unexpectedValue, String.toList_append, List.mem_append] at h
    rcases h with ((hword | hkey) | hword) | hactual
    · exact hwords "expected " (by simp) c hword
    · exact not_isControl_of_mem_quote hkey
    · exact hwords " to be absent, got " (by simp) c hword
    · exact not_isControl_of_mem_quote hactual
  | _ => cases hassertion

end Failure

/-! ### Details of reports -/

namespace Suite

/-- A suite that is run on a client. -/
structure ClientRun : Type 1 where
  suite : Suite
  connected : Connected
  target : String
  onFailure : OnFailure

namespace ClientRun

def report (run : ClientRun) : SuiteReport :=
  run.suite.runReport run.connected.client run.target run.onFailure run.connected.state

/-- An entry shows a failure when it is that of a check which the run executed and which failed
so. -/
def Shows (run : ClientRun) (entry : CheckReport) (failure : Failure) : Prop :=
  ∃ execution ∈ executed run.connected.client run.onFailure run.suite.checks run.connected.state,
    execution.entry = entry ∧ execution.progress.verdict = .error failure

/-- The failed entries of a report are those that show failures. -/
theorem mem_report_and_failed_iff (run : ClientRun) (entry : CheckReport) :
    entry ∈ run.report.checks ∧ entry.status = .failed ↔ ∃ failure, run.Shows entry failure := by
  rw [report, runReport_checks, List.mem_append, List.mem_map]
  constructor
  · rintro ⟨⟨execution, hexecuted, rfl⟩ | hskipped, hstatus⟩
    · rw [Execution.status_eq_failed_iff, Execution.failed] at hstatus
      cases hverdict : execution.progress.verdict with
      | ok done =>
        rw [hverdict] at hstatus
        cases hstatus
      | error failure => exact ⟨failure, execution, hexecuted, rfl, hverdict⟩
    · obtain ⟨check, -, rfl⟩ := List.mem_map.mp hskipped
      cases hstatus
  · rintro ⟨failure, execution, hexecuted, rfl, hverdict⟩
    refine ⟨.inl ⟨execution, hexecuted, rfl⟩, ?_⟩
    rw [Execution.status_eq_failed_iff, Execution.failed, hverdict]

theorem Shows.detail_eq {run : ClientRun} {entry : CheckReport} {failure : Failure}
    (h : run.Shows entry failure) : entry.detail = some failure.message := by
  obtain ⟨execution, -, rfl, hverdict⟩ := h
  simp [Execution.entry, Check.Progress.report, hverdict]

/-- Two entries have the same detail only for the same failure, if one of them shows a verdict on a
value. -/
theorem Shows.detail_eq_iff {run run' : ClientRun} {entry entry' : CheckReport}
    {failure failure' : Failure} (h : run.Shows entry failure) (h' : run'.Shows entry' failure')
    (hassertion : failure.isAssertion = true) :
    entry.detail = entry'.detail ↔ failure = failure' := by
  rw [h.detail_eq, h'.detail_eq, Option.some.injEq, Failure.message_eq_iff hassertion]

end ClientRun

end Suite

/-- What the texts of verdicts on values tell. -/
structure Failure.ToldApart : Prop where
  /-- No text has a control character in it, whatever was written or read. -/
  no_control : ∀ failure : Failure, failure.isAssertion = true →
    ∀ c ∈ failure.message.toList, ¬ IsControl c
  mismatch_iff : ∀ key expected actual key' expected' actual',
    (Failure.mismatch key expected actual).message =
        (Failure.mismatch key' expected' actual').message ↔
      key = key' ∧ expected = expected' ∧ actual = actual'
  unexpectedValue_iff : ∀ key actual key' actual',
    (Failure.unexpectedValue key actual).message =
        (Failure.unexpectedValue key' actual').message ↔ key = key' ∧ actual = actual'
  mismatch_ne_unexpectedValue : ∀ key expected actual key' actual',
    (Failure.mismatch key expected actual).message ≠
      (Failure.unexpectedValue key' actual').message
  /-- Every failed entry of a report shows a failure, and no other entry does. -/
  failed_iff : ∀ (run : Suite.ClientRun) (entry : CheckReport),
    entry ∈ run.report.checks ∧ entry.status = .failed ↔ ∃ failure, run.Shows entry failure
  /-- An entry of a report that shows a verdict on a value has the detail of no other failure, in
  its own report or in another. -/
  detail_iff : ∀ (run run' : Suite.ClientRun) (entry entry' : CheckReport)
    (failure failure' : Failure), run.Shows entry failure → run'.Shows entry' failure' →
      failure.isAssertion = true → (entry.detail = entry'.detail ↔ failure = failure')

/-- The text of a verdict on a value determines the verdict, and so does the detail of a report. -/
theorem Failure.verdicts_toldApart : ToldApart where
  no_control _failure hassertion _c := not_isControl_of_mem_message hassertion
  mismatch_iff _ _ _ _ _ _ := mismatch_message_eq_iff
  unexpectedValue_iff _ _ _ _ := unexpectedValue_message_eq_iff
  mismatch_ne_unexpectedValue key expected actual key' actual' h := by
    have hassertion : (mismatch key expected actual).isAssertion = true := rfl
    cases (message_eq_iff hassertion).mp h
  failed_iff run entry := run.mem_report_and_failed_iff entry
  detail_iff _run _run' _entry _entry' _failure _failure' h h' hassertion :=
    h.detail_eq_iff h' hassertion

end CacheCheck
