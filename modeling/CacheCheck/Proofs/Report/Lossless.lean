import CacheCheck.Proofs.Json.Numbers
import CacheCheck.Proofs.Text.Utf8
import CacheCheck.Report
import CacheCheck.Report.Format

/-!
Reports written as a document can be read back, but for the times that checks took. The document is
read as an object for each report, in order; from the members of these objects, which are none but
those of a report, the report is had again (`renderJson_lossless`). So reports that differ otherwise
than in times are written differently.
-/

set_option autoImplicit false

namespace CacheCheck

/-! ### Reports from documents -/

/-- The status with exactly this name. -/
def Status.ofName? (s : String) : Option Status :=
  all.find? (·.name = s)

theorem Status.ofName?_name (status : Status) : ofName? status.name = some status := by
  cases status <;> rfl

namespace Json

/-- The count that a number stands for, if its text has nothing but digits. -/
def count? (text : String) : Option Nat :=
  if isDigits text.toList then some (Nat.ofDigitChars 10 text.toList 0) else none

/-- A time is a number, or null where there is none. -/
def isTime : Json → Bool
  | .number _ | .null => true
  | _ => false

theorem count?_repr (n : Nat) : count? n.repr = some n := by
  rw [count?, Nat.toList_repr, isDigits_toDigits, if_pos rfl, Nat.ofDigitChars_ten_toDigits]

theorem isTime_ofBinary64 (x : Binary64) : (ofBinary64 x).isTime = true := by
  cases x <;> rfl

end Json

/-- The entry that an object stands for: it has the members of one, and no others. The time is not
read. -/
def CheckReport.ofJson? : Json → Option CheckReport
  | .object (("name", .string name) :: ("status", .string status) :: ("elapsed_ms", elapsed) ::
      ("writes", .number writes) :: ("reads", .number reads) :: rest) =>
    if elapsed.isTime then do
      let status ← Status.ofName? status
      let writes ← Json.count? writes
      let reads ← Json.count? reads
      match rest with
      | [] => some { name, status, writes, reads }
      | [("detail", .string detail)] => some { name, status, writes, reads, detail := some detail }
      | _ => none
    else none
  | _ => none

/-- The report that an object stands for. -/
def SuiteReport.ofJson? : Json → Option SuiteReport
  | .object [("backend", .string backend), ("suite", .string suite), ("target", .string target),
      ("checks", .array checks)] => do
    let backend ← Backend.ofName? backend
    let checks ← checks.mapM CheckReport.ofJson?
    some { backend, suite, target, checks }
  | _ => none

/-- The reports that a document stands for. -/
def SuiteReport.allOfJson? : Json → Option (List SuiteReport)
  | .array reports => reports.mapM ofJson?
  | _ => none

theorem mapM_map_eq_some {α β γ : Type} {write : α → β} {read : β → Option γ} {f : α → γ}
    (h : ∀ a, read (write a) = some (f a)) (items : List α) :
    (items.map write).mapM read = some (items.map f) := by
  induction items with
  | nil => rfl
  | cons a items ih => simp [h, ih]

theorem CheckReport.ofJson?_toJson (check : CheckReport) :
    ofJson? check.toJson = some check.untimed := by
  obtain ⟨name, status, elapsed, writes, reads, detail⟩ := check
  cases detail <;>
    simp [toJson, ofJson?, untimed, Json.ofNat, Json.isTime_ofBinary64, Status.ofName?_name,
      Json.count?_repr]

/-! ### Documents from reports -/

theorem CheckReport.written_toJson (check : CheckReport) : check.toJson.Written := by
  have helapsed := Json.written_ofBinary64 check.elapsed
  have hwrites := Json.written_ofNat check.writes
  have hreads := Json.written_ofNat check.reads
  refine .object ?_
  cases check.detail <;> simp [helapsed, hwrites, hreads, Json.Written.string]

namespace SuiteReport

theorem ofJson?_toJson (report : SuiteReport) : ofJson? report.toJson = some report.untimed := by
  have hchecks := mapM_map_eq_some CheckReport.ofJson?_toJson report.checks
  simp [toJson, ofJson?, untimed, hchecks]

theorem allOfJson?_toJson (reports : List SuiteReport) :
    allOfJson? (.array (reports.map toJson)) = some (reports.map untimed) :=
  mapM_map_eq_some ofJson?_toJson reports

theorem written_toJson (report : SuiteReport) : report.toJson.Written := by
  refine .object ?_
  have hchecks : (Json.array (report.checks.map CheckReport.toJson)).Written := by
    refine .array fun item hitem ↦ ?_
    obtain ⟨check, -, rfl⟩ := List.mem_map.mp hitem
    exact check.written_toJson
  simp [hchecks, Json.Written.string]

theorem written_array (reports : List SuiteReport) : (Json.array (reports.map toJson)).Written := by
  refine .array fun item hitem ↦ ?_
  obtain ⟨report, -, rfl⟩ := List.mem_map.mp hitem
  exact report.written_toJson

theorem exists_layOutItems_eq (depth : Nat) (items : List Json) :
    ∃ front, Json.layOutItems depth items = front ++ [']'] := by
  induction items with
  | nil => exact ⟨Json.newline depth, by rw [Json.layOutItems]⟩
  | cons item items ih =>
    obtain ⟨front, hfront⟩ := ih
    exact ⟨',' :: (Json.newline (depth + 1) ++ Json.layOut (depth + 1) item ++ front),
      by simp [Json.layOutItems, hfront]⟩

theorem getLast?_pretty_array (items : List Json) :
    (Json.array items).pretty.toList.getLast? = some ']' := by
  rw [Json.pretty, String.toList_ofList]
  cases items with
  | nil => rfl
  | cons item items =>
    obtain ⟨front, hfront⟩ := exists_layOutItems_eq 0 items
    rw [Json.layOut, hfront, ← List.append_assoc, ← List.cons_append, List.getLast?_concat]

/-- What is written for reports. -/
structure Lossless (reports : List SuiteReport) : Prop where
  /-- One document, which ends in its bracket, and a line end. -/
  document : ∃ document, renderJson reports = document ++ "\n" ∧
    document.toList.getLast? = some ']' ∧
      Json.parse? document = some (.array (reports.map toJson))
  /-- The document has an object for each report, in order, with the members of a report and no
  others, which tell all of it but the times. -/
  read_eq : (Json.parse? (renderJson reports)).bind allOfJson? = some (reports.map untimed)
  /-- Reports that differ otherwise than in times are written as other bytes. -/
  encode_ne (others : List SuiteReport) : others.map untimed ≠ reports.map untimed →
    Utf8.encode (renderJson others) ≠ Utf8.encode (renderJson reports)

theorem parse?_renderJson (reports : List SuiteReport) :
    Json.parse? (renderJson reports) = some (.array (reports.map toJson)) :=
  Json.parse?_pretty_append (written_array reports) (by simp [Json.isBlank])

theorem read_renderJson (reports : List SuiteReport) :
    (Json.parse? (renderJson reports)).bind allOfJson? = some (reports.map untimed) := by
  rw [parse?_renderJson, Option.bind_some, allOfJson?_toJson]

/-- Reports are written as one document that tells all of them but the times. -/
theorem renderJson_lossless (reports : List SuiteReport) : Lossless reports where
  document := by
    have hparse := Json.parse?_pretty_append (written_array reports)
      (by simp : ∀ c ∈ "".toList, Json.isBlank c = true)
    rw [String.append_empty] at hparse
    exact ⟨_, rfl, getLast?_pretty_array _, hparse⟩
  read_eq := read_renderJson reports
  encode_ne others hne hencode := by
    refine hne (Option.some.inj ?_)
    have hsame : renderJson others = renderJson reports := by
      rw [← Option.some.injEq, ← Utf8.decode?_encode, hencode, Utf8.decode?_encode]
    rw [← read_renderJson, hsame, read_renderJson]

end SuiteReport

end CacheCheck
