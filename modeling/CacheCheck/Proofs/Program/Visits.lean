import Mathlib.Data.List.Forall2
import CacheCheck.Program

/-!
Runs over several targets. A target that can be opened yields a client of its own backend, which
may answer anything; one that cannot be yields a failure (`Opened`). Either way the visit to it is
settled by its own opening alone (`visit_of_opened`), so what becomes of one target has no bearing
on the visit to another, and the result is put together from the visits.

The main theorem (`run_visited`) says what a run leaves on any network: one report for each target
that was opened, in the order of the targets, each the report of a run over that target alone; an
exit code that failures to open decide before failures of checks do; one error in the log for each
target that could not be opened, and the word that all is done where all is.
-/

set_option autoImplicit false

namespace CacheCheck

/-- A report is one of success when every check in it passed. -/
theorem SuiteReport.isSuccess_iff_forall (report : SuiteReport) :
    report.isSuccess = true ↔ ∀ check ∈ report.checks, check.status = .passed := by
  rw [isSuccess, Bool.and_eq_true, decide_eq_true_iff, decide_eq_true_iff, count, count,
    List.countP_eq_zero, List.countP_eq_zero]
  constructor
  · intro ⟨hfailed, hskipped⟩ check hmem
    have hnotFailed := hfailed check hmem
    have hnotSkipped := hskipped check hmem
    cases hstatus : check.status <;> simp [hstatus] at hnotFailed hnotSkipped ⊢
  · intro h
    exact ⟨fun check hmem ↦ by simp [h check hmem], fun check hmem ↦ by simp [h check hmem]⟩

namespace Program

open CommandLine (Invocation Request)

/-! ### Log lines -/

/-- The line that ends the log of a run in which everything passed. -/
def doneLine : LogLine := ⟨.info, "done"⟩

/-- The line for a target that could not be opened. -/
def errorLine (failure : Failure) : LogLine := ⟨.error, failure.message⟩

/-- A line that is neither an error nor the end of a run. -/
def IsQuiet (line : LogLine) : Prop :=
  line.level ≠ .error ∧ line ≠ doneLine

theorem isQuiet_warn (message : String) : IsQuiet ⟨.warn, message⟩ :=
  ⟨by simp, by simp [doneLine]⟩

theorem isQuiet_debug (message : String) : IsQuiet ⟨.debug, message⟩ :=
  ⟨by simp, by simp [doneLine]⟩

/-- A message that begins otherwise does not say that all is done. -/
theorem isQuiet_info {message : String} {c : Char} (hfirst : message.toList.head? = some c)
    (hc : c ≠ 'd') : IsQuiet ⟨.info, message⟩ := by
  refine ⟨by simp, fun hdone ↦ hc ?_⟩
  cases hdone
  cases hfirst
  rfl

/-- What is added behind a text leaves its first character. -/
theorem head?_append {s : String} {c : Char} (h : s.toList.head? = some c) (t : String) :
    (s ++ t).toList.head? = some c := by
  rw [String.toList_append, List.head?_append, h]
  rfl

theorem exists_head?_name (backend : Backend) :
    ∃ c, backend.name.toList.head? = some c ∧ c ≠ 'd' := by
  cases backend
  · exact ⟨'r', rfl, by decide⟩
  · exact ⟨'r', rfl, by decide⟩
  · exact ⟨'m', rfl, by decide⟩

/-- What happens while checks run is no error of the program. -/
theorem isQuiet_of_mem_log {announce : Call → List LogLine}
    (h : ∀ call, ∀ line ∈ announce call, IsQuiet line) (event : Event) :
    ∀ line ∈ event.log announce, IsQuiet line := by
  intro line hline
  cases event with
  | called call answer => exact h call line hline
  | started backend name =>
    rw [List.mem_singleton.mp hline]
    obtain ⟨c, hfirst, hc⟩ := exists_head?_name backend
    exact isQuiet_info (head?_append (head?_append hfirst _) _) hc
  | failed backend name failure =>
    rw [List.mem_singleton.mp hline]
    exact isQuiet_warn _
  | paused milliseconds key =>
    rw [List.mem_singleton.mp hline]
    exact isQuiet_debug _

/-! ### Openings -/

/-- An opening that yields a client of the target's backend, or a failure. -/
inductive Opened (target : Target) : Opening → Prop
  | failed (failure : Failure) : Opened target (.failed failure)
  | ready {σ : Type} (client : Client σ) (state : σ) (log : List LogLine)
      (hbackend : client.backend = target.backend)
      (hlog : ∀ line ∈ log, IsQuiet line)
      (hannounce : ∀ call, ∀ line ∈ client.announce call, IsQuiet line) :
      Opened target (.ready ⟨client, state⟩ log)

theorem Opened.ne_aborted {target : Target} {opening : Opening} (h : Opened target opening)
    (message : String) : opening ≠ .aborted message := by
  rintro rfl
  cases h

/-- A client that announces each call by a line for debugging, opened with a line that begins with
`connected`. -/
theorem opened_connected {target : Target} {connected : Connected} {text : String}
    (hbackend : connected.client.backend = target.backend)
    (hannounce : ∀ call, ∃ message, connected.client.announce call = [⟨.debug, message⟩])
    (htext : text.toList.head? = some 'c') :
    Opened target (.ready connected [⟨.info, text⟩]) := by
  obtain ⟨client, state⟩ := connected
  refine .ready client state _ hbackend (fun line hline ↦ ?_) fun call line hline ↦ ?_
  · rw [List.mem_singleton.mp hline]
    exact isQuiet_info htext (by decide)
  · obtain ⟨message, hcall⟩ := hannounce call
    rw [hcall, List.mem_singleton] at hline
    rw [hline]
    exact isQuiet_debug message

theorem opened_redis (connection : Redis.Connection) (target : Target) {text : String}
    (htext : text.toList.head? = some 'c') :
    Opened target (.ready (connection.connected target.backend) [⟨.info, text⟩]) :=
  opened_connected rfl (fun call ↦ by cases call <;> exact ⟨_, rfl⟩) htext

theorem opened_memcached (pool : Memcached.Pool) (servers : Memcached.Servers) {text : String}
    (htext : text.toList.head? = some 'c') :
    Opened (.memcached servers) (.ready pool.connected [⟨.info, text⟩]) :=
  opened_connected rfl (fun call ↦ by cases call <;> exact ⟨_, rfl⟩) htext

theorem opened_node (network : Network) (node : Redis.Node) :
    Opened (.redis node) (node.connect network) := by
  unfold Redis.Node.connect
  split
  · exact .failed _
  split
  · exact .failed _
  · exact opened_redis _ (.redis node)
      (head?_append (head?_append (head?_append (head?_append rfl _) _) _) _)

theorem opened_cluster (network : Network) (cluster : Redis.Cluster) :
    Opened (.cluster cluster) (cluster.connect network) := by
  unfold Redis.Cluster.connect
  split
  · exact .failed _
  split
  · exact .failed _
  · exact opened_redis _ (.cluster cluster)
      (head?_append (head?_append (head?_append (head?_append rfl _) _) _) _)

theorem opened_servers (network : Network) {servers : Memcached.Servers}
    (h : ∀ message, servers.connect network ≠ .aborted message) :
    Opened (.memcached servers) (servers.connect network) := by
  unfold Memcached.Servers.connect at h ⊢
  split
  · exact .failed _
  split
  · exact .failed _
  · next hurls _ message hreach =>
    simp only [hurls, hreach] at h
    exact absurd rfl (h message)
  · exact opened_memcached _ servers (head?_append rfl _)

/-- Whatever the network, a target is opened so, unless the opening is aborted. -/
theorem opened_connect (network : Network) {target : Target}
    (h : ∀ message, target.connect network ≠ .aborted message) :
    Opened target (target.connect network) :=
  match target with
  | .redis node => opened_node network node
  | .cluster cluster => opened_cluster network cluster
  | .memcached _ => opened_servers network h

/-- Only a wait of no length is aborted. -/
theorem timeout_eq_of_reach {network : Network} {timeout : Option Nat} {urls : List String}
    {message : String} (h : Memcached.reach network timeout urls = .error (.abort message)) :
    timeout = some 0 := by
  induction urls with
  | nil => cases h
  | cons url rest ih =>
    unfold Memcached.reach at h
    split at h
    · cases h
    split at h
    · next hzero => exact hzero
    split at h
    · cases h
    · cases hrest : Memcached.reach network timeout rest with
      | error obstacle =>
        rw [hrest] at h
        cases h
        exact ih hrest
      | ok addresses =>
        rw [hrest] at h
        cases h

theorem connect_ne_aborted (network : Network) {target : Target}
    (h : ∀ servers, target = .memcached servers → servers.timeout ≠ some 0) (message : String) :
    target.connect network ≠ .aborted message := by
  intro haborted
  cases target with
  | redis node => exact (opened_node network node).ne_aborted message haborted
  | cluster cluster => exact (opened_cluster network cluster).ne_aborted message haborted
  | memcached servers =>
    refine h servers rfl ?_
    change servers.connect network = .aborted message at haborted
    unfold Memcached.Servers.connect at haborted
    split at haborted
    · cases haborted
    split at haborted
    · cases haborted
    · next hreach => exact timeout_eq_of_reach hreach
    · cases haborted

/-! ### Visits -/

/-- The failure to open a target. -/
def failure? : Opening → Option Failure
  | .failed failure => some failure
  | _ => none

/-- The report of a target that was opened: of its backend, under the name of that backend, and
with the checks that the opened client was put to. -/
def report? (invocation : Invocation) (target : Target) : Opening → Option SuiteReport
  | .ready connected _ =>
    let suite := Suite.forBackend target.backend invocation.options
    some
      { backend := target.backend
        suite := target.backend.name
        target := target.describe
        checks := (suite.run connected.client invocation.onFailure connected.state).checks }
  | _ => none

/-- What a visit leaves, as the opening of its target settles it. -/
structure IsVisit (invocation : Invocation) (target : Target) (opening : Opening)
    (visit : Visit) : Prop where
  report?_eq : visit.report? = report? invocation target opening
  errors_eq : visit.log.filter (·.level = .error) = ((failure? opening).map errorLine).toList
  not_done : doneLine ∉ visit.log

theorem filter_eq_nil_of_quiet {log : List LogLine} (h : ∀ line ∈ log, IsQuiet line) :
    log.filter (·.level = .error) = [] := by
  rw [List.filter_eq_nil_iff]
  intro line hline
  simpa using (h line hline).1

variable {connect : Target → Opening}

theorem visit_of_opened (invocation : Invocation) {target : Target}
    (h : Opened target (connect target)) :
    ∃ seen, visit connect invocation target = .ok seen ∧
      IsVisit invocation target (connect target) seen := by
  unfold visit
  cases hopening : connect target with
  | aborted message =>
    rw [hopening] at h
    cases h
  | failed failure =>
    refine ⟨_, rfl, rfl, rfl, ?_⟩
    simp [doneLine]
  | ready connected log =>
    rw [hopening] at h
    cases h with
    | ready client state _ hbackend hlog hannounce =>
      have hquiet : ∀ line ∈ log ++ ((Suite.forBackend target.backend invocation.options).run client
          invocation.onFailure state).events.flatMap (·.log client.announce), IsQuiet line := by
        intro line hline
        rcases List.mem_append.mp hline with hopened | hrun
        · exact hlog line hopened
        · obtain ⟨event, -, hevent⟩ := List.mem_flatMap.mp hrun
          exact isQuiet_of_mem_log hannounce event line hevent
      refine ⟨_, rfl, ?_, filter_eq_nil_of_quiet hquiet, fun hdone ↦ (hquiet _ hdone).2 rfl⟩
      simp only [report?, Suite.report, hbackend]
      rfl

/-! ### Runs -/

/-- Targets were visited in order, and each visit left what its own opening settles. -/
abbrev Visits (connect : Target → Opening) (invocation : Invocation) (targets : List Target)
    (visits : List Visit) : Prop :=
  List.Forall₂ (fun target seen ↦ visit connect invocation target = .ok seen ∧
    IsVisit invocation target (connect target) seen) targets visits

theorem exists_visits (invocation : Invocation) {targets : List Target}
    (h : ∀ target ∈ targets, Opened target (connect target)) :
    ∃ visits, Visits connect invocation targets visits := by
  induction targets with
  | nil => exact ⟨[], .nil⟩
  | cons target rest ih =>
    obtain ⟨seen, hseen⟩ := visit_of_opened invocation (h target List.mem_cons_self)
    obtain ⟨visits, hvisits⟩ := ih fun other hmem ↦ h other (List.mem_cons_of_mem target hmem)
    exact ⟨seen :: visits, .cons hseen hvisits⟩

namespace Visits

variable {invocation : Invocation} {targets : List Target} {visits : List Visit}

theorem mapM_eq (h : Visits connect invocation targets visits) :
    targets.mapM (visit connect invocation) = .ok visits := by
  induction h with
  | nil => rfl
  | cons hseen _ ih =>
    rw [List.mapM_cons, hseen.1, ih]
    rfl

theorem map_report? (h : Visits connect invocation targets visits) :
    visits.map (·.report?) =
      targets.map fun target ↦ report? invocation target (connect target) := by
  induction h with
  | nil => rfl
  | cons hseen _ ih => rw [List.map_cons, List.map_cons, hseen.2.report?_eq, ih]

theorem filter_log (h : Visits connect invocation targets visits) :
    (visits.flatMap (·.log)).filter (·.level = .error) =
      targets.filterMap fun target ↦ (failure? (connect target)).map errorLine := by
  induction h with
  | nil => rfl
  | cons hseen _ ih =>
    rw [List.flatMap_cons, List.filter_append, ih, hseen.2.errors_eq, List.filterMap_cons]
    cases (failure? (connect _)).map errorLine <;> rfl

theorem not_done (h : Visits connect invocation targets visits) :
    doneLine ∉ visits.flatMap (·.log) := by
  induction h with
  | nil => simp
  | cons hseen _ ih =>
    rw [List.flatMap_cons, List.mem_append, not_or]
    exact ⟨hseen.2.not_done, ih⟩

end Visits

/-- Some target cannot be opened. -/
def SomeFailed (connect : Target → Opening) (invocation : Invocation) : Prop :=
  ∃ target ∈ invocation.targets, ∃ failure, connect target = .failed failure

/-- The reports of the targets that are opened, in the order of the targets. -/
def reports (connect : Target → Opening) (invocation : Invocation) : List SuiteReport :=
  invocation.targets.filterMap fun target ↦ report? invocation target (connect target)

/-- Every check of every report passed. -/
def AllPassed (connect : Target → Opening) (invocation : Invocation) : Prop :=
  ∀ report ∈ reports connect invocation, ∀ check ∈ report.checks, check.status = .passed

theorem report?_eq_none_iff (invocation : Invocation) {target : Target} {opening : Opening}
    (h : Opened target opening) :
    report? invocation target opening = none ↔ ∃ failure, opening = .failed failure := by
  cases h with
  | failed failure => exact ⟨fun _ ↦ ⟨failure, rfl⟩, fun _ ↦ rfl⟩
  | ready client state log hbackend hlog hannounce => simp [report?]

/-- Failures to open decide the exit code before failures of checks do. -/
theorem Visits.exitCode_eq {invocation : Invocation} {visits : List Visit}
    (h : Visits connect invocation invocation.targets visits)
    (hopen : ∀ target ∈ invocation.targets, Opened target (connect target)) :
    (SomeFailed connect invocation → exitCode visits = 2) ∧
      (¬ SomeFailed connect invocation → AllPassed connect invocation → exitCode visits = 0) ∧
      (¬ SomeFailed connect invocation → ¬ AllPassed connect invocation →
        exitCode visits = 1) := by
  have hfailed : (visits.any (·.report?.isNone)) = true ↔ SomeFailed connect invocation := by
    have hany : visits.any (·.report?.isNone) =
        (visits.map (·.report?)).any Option.isNone := by
      rw [List.any_map]
      rfl
    rw [hany, h.map_report?, List.any_map, List.any_eq_true]
    simp only [Function.comp, Option.isNone_iff_eq_none]
    refine exists_congr fun target ↦ and_congr_right fun hmem ↦ ?_
    exact report?_eq_none_iff invocation (hopen target hmem)
  have hpassed : (visits.all (·.report?.all (·.isSuccess))) = true ↔
      AllPassed connect invocation := by
    have hall : visits.all (·.report?.all (·.isSuccess)) =
        (visits.map (·.report?)).all (·.all (·.isSuccess)) := by
      rw [List.all_map]
      rfl
    rw [hall, h.map_report?, List.all_map, List.all_eq_true]
    simp only [Function.comp, Option.all_eq_true, SuiteReport.isSuccess_iff_forall]
    refine ⟨fun hpassed report hmem ↦ ?_, fun hpassed target htarget report hreport ↦ ?_⟩
    · obtain ⟨target, htarget, hreport⟩ := List.mem_filterMap.mp hmem
      exact hpassed target htarget report hreport
    · exact hpassed report (List.mem_filterMap.mpr ⟨target, htarget, hreport⟩)
  refine ⟨fun hsome ↦ ?_, fun hnone hall ↦ ?_, fun hnone hsome ↦ ?_⟩
  · rw [exitCode, if_pos (hfailed.mpr hsome)]
  · rw [exitCode, if_neg (hnone ∘ hfailed.mp), if_pos (hpassed.mpr hall)]
  · rw [exitCode, if_neg (hnone ∘ hfailed.mp), if_neg (hsome ∘ hpassed.mp)]

/-- The reports that visits leave are those of the targets that are opened. -/
theorem Visits.filterMap_report? {invocation : Invocation} {visits : List Visit}
    (h : Visits connect invocation invocation.targets visits) :
    visits.filterMap (·.report?) = reports connect invocation := by
  have hmap {α : Type} (f : α → Option SuiteReport) (entries : List α) :
      entries.filterMap f = (entries.map f).filterMap id := by
    rw [List.filterMap_map]
    rfl
  rw [reports, hmap, h.map_report?, ← hmap]

/-- What a run leaves. -/
structure Visited (connect : Target → Opening) (invocation : Invocation) (result : Result) :
    Prop where
  /-- Every target is visited in turn, whatever came of those before. -/
  visits : ∃ visits, List.Forall₂ (fun target seen ↦ visit connect invocation target = .ok seen)
      invocation.targets visits ∧
    result.log = visits.flatMap (·.log) ++ if result.exitCode = 0 then [doneLine] else []
  output_eq : result.output = invocation.format.render (reports connect invocation)
  /-- Each report is that of a run over the target alone. -/
  alone : ∀ target ∈ invocation.targets,
    (∃ request : Request, request.targets invocation.version = [target]) ∧
      ∀ request : Request, request.targets invocation.version = [target] →
        ∃ single, run connect { invocation with request } = .ok single ∧
          single.output =
            invocation.format.render (report? invocation target (connect target)).toList
  exitCode_eq_two_iff : result.exitCode = 2 ↔ SomeFailed connect invocation
  exitCode_eq_zero_iff : ¬ SomeFailed connect invocation →
    (result.exitCode = 0 ↔ AllPassed connect invocation)
  exitCode_eq_one_iff : ¬ SomeFailed connect invocation →
    (result.exitCode = 1 ↔ ¬ AllPassed connect invocation)
  done_iff : doneLine ∈ result.log ↔ result.exitCode = 0
  /-- One error for each target that could not be opened, in the order of the targets. -/
  errors_eq : result.log.filter (·.level = .error) =
    invocation.targets.filterMap fun target ↦ (failure? (connect target)).map errorLine

/-- Any target of an invocation can be asked for by itself. -/
theorem exists_request {invocation : Invocation} {target : Target}
    (h : target ∈ invocation.targets) :
    ∃ request : Request, request.targets invocation.version = [target] := by
  unfold Invocation.targets at h
  cases hrequest : invocation.request with
  | all url nodes servers =>
    rw [hrequest] at h
    simp only [Request.targets, List.mem_cons, List.not_mem_nil, or_false] at h
    rcases h with rfl | rfl | rfl
    · exact ⟨.redis url none, rfl⟩
    · exact ⟨.cluster nodes none, rfl⟩
    · exact ⟨.memcached servers .standard 60000, rfl⟩
  | _ =>
    rw [hrequest] at h
    refine ⟨invocation.request, ?_⟩
    rw [hrequest, List.mem_singleton.mp h]
    rfl

theorem exists_run (invocation : Invocation)
    (hopen : ∀ target ∈ invocation.targets, Opened target (connect target)) :
    ∃ visits, Visits connect invocation invocation.targets visits ∧
      run connect invocation = .ok (conclude invocation.format visits) := by
  obtain ⟨visits, hvisits⟩ := exists_visits invocation hopen
  refine ⟨visits, hvisits, ?_⟩
  rw [run, hvisits.mapM_eq]
  rfl

/-- A run over one target of an invocation writes the report of that target. -/
theorem exists_run_alone {invocation : Invocation} {target : Target}
    (hopen : Opened target (connect target)) {request : Request}
    (hrequest : request.targets invocation.version = [target]) :
    ∃ single, run connect { invocation with request } = .ok single ∧
      single.output =
        invocation.format.render (report? invocation target (connect target)).toList := by
  have htargets : { invocation with request }.targets = [target] := hrequest
  obtain ⟨visits, hvisits, hrun⟩ := @exists_run connect { invocation with request } (by
    rw [htargets]
    intro other hmem
    rw [List.mem_singleton.mp hmem]
    exact hopen)
  refine ⟨_, hrun, ?_⟩
  have hreports : visits.filterMap (·.report?) =
      (report? invocation target (connect target)).toList := by
    have hsame : report? { invocation with request } = report? invocation := rfl
    rw [hvisits.filterMap_report?, reports, htargets, hsame, List.filterMap_cons]
    cases report? invocation target (connect target) <;> rfl
  exact congrArg invocation.format.render hreports

/-- A run of which every target can be opened, or fails to be, comes to a result. -/
theorem exists_visited (invocation : Invocation)
    (hopen : ∀ target ∈ invocation.targets, Opened target (connect target)) :
    ∃ result, run connect invocation = .ok result ∧ Visited connect invocation result := by
  obtain ⟨visits, hvisits, hrun⟩ := exists_run invocation hopen
  obtain ⟨htwo, hzero, hone⟩ := hvisits.exitCode_eq hopen
  have herrors :
      (if exitCode visits = 0 then [doneLine] else []).filter (·.level = .error) = [] := by
    split <;> rfl
  refine ⟨_, hrun, ?_⟩
  refine
    { visits := ⟨visits, hvisits.imp fun _ _ h ↦ h.1, rfl⟩
      output_eq := congrArg invocation.format.render hvisits.filterMap_report?
      alone := fun target hmem ↦
        ⟨exists_request hmem, fun _ hrequest ↦ exists_run_alone (hopen target hmem) hrequest⟩
      exitCode_eq_two_iff := ?_
      exitCode_eq_zero_iff := fun hnone ↦ ?_
      exitCode_eq_one_iff := fun hnone ↦ ?_
      done_iff := ?_
      errors_eq := ?_ }
  · change exitCode visits = 2 ↔ _
    refine ⟨fun hcode ↦ ?_, htwo⟩
    by_cases hsome : SomeFailed connect invocation
    · exact hsome
    by_cases hall : AllPassed connect invocation
    · cases hcode.symm.trans (hzero hsome hall)
    · cases hcode.symm.trans (hone hsome hall)
  · change exitCode visits = 0 ↔ _
    refine ⟨fun hcode ↦ ?_, hzero hnone⟩
    by_cases hall : AllPassed connect invocation
    · exact hall
    · cases hcode.symm.trans (hone hnone hall)
  · change exitCode visits = 1 ↔ _
    refine ⟨fun hcode hall ↦ ?_, hone hnone⟩
    cases hcode.symm.trans (hzero hnone hall)
  · change doneLine ∈ visits.flatMap (·.log) ++ (if exitCode visits = 0 then [doneLine] else []) ↔
      exitCode visits = 0
    rw [List.mem_append, or_iff_right hvisits.not_done]
    split
    · next hcode => simp [hcode]
    · next hcode => simp [hcode]
  · change (visits.flatMap (·.log) ++ if exitCode visits = 0 then [doneLine] else []).filter _ = _
    rw [List.filter_append, herrors, List.append_nil, hvisits.filter_log]

/-- What a run leaves on any network. Assumes: no opening is aborted, so that each target yields a
client or a failure. -/
theorem run_visited (network : Network) (invocation : Invocation)
    (hopen : ∀ target ∈ invocation.targets, ∀ message, target.connect network ≠ .aborted message) :
    ∃ result, run (Target.connect network) invocation = .ok result ∧
      Visited (Target.connect network) invocation result :=
  exists_visited invocation fun target hmem ↦ opened_connect network (hopen target hmem)

/-- A network on which every node answers nil to whatever it is sent, and nothing else answers. -/
def nilNetwork : Network :=
  { Network.unreachable with redis := fun _ _ ↦ .ok ⟨fun _ state ↦ (.ok .nil, state), ()⟩ }

/-- A node that can be opened, then a cluster without nodes, and no server. -/
def mixed : Invocation where
  request := .all "redis://127.0.0.1:6379" [] []
  version := .standard
  format := .json
  onFailure := .stop
  options := {}
  verbosity := 0

theorem run_visited_mixed :
    (∀ target ∈ mixed.targets, ∀ message, target.connect nilNetwork ≠ .aborted message) ∧
      ∃ result, run (Target.connect nilNetwork) mixed = .ok result ∧
        Visited (Target.connect nilNetwork) mixed result ∧
        result.exitCode = 2 ∧
        (reports (Target.connect nilNetwork) mixed).map (·.target) = ["redis://127.0.0.1:6379"] ∧
        result.log.filter (·.level = .error) =
          [errorLine (.configuration "at least one cluster node is required"),
            errorLine (.configuration "at least one memcached server is required")] := by
  have hopen : ∀ target ∈ mixed.targets, ∀ message,
      target.connect nilNetwork ≠ .aborted message := by
    intro target hmem
    refine connect_ne_aborted nilNetwork ?_
    rintro servers rfl
    have hservers : servers = { servers := [] } := by
      simpa [mixed, Invocation.targets, Request.targets] using hmem
    rw [hservers]
    decide
  obtain ⟨result, hrun, hvisited⟩ := run_visited nilNetwork mixed hopen
  refine ⟨hopen, result, hrun, hvisited, ?_, rfl, hvisited.errors_eq.trans rfl⟩
  refine hvisited.exitCode_eq_two_iff.mpr ⟨.cluster { nodes := [] }, ?_, _, rfl⟩
  exact List.mem_cons_of_mem _ List.mem_cons_self

end Program

end CacheCheck
