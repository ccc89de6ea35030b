import CacheCheck.Proofs.Contents

/-!
The default suites give no false alarm. On a cache that is its contents a check passes unless it
finds a key that must be missing, and leaves what its writes put there (`Check.run_contents`). So a
suite passes when the keys that must be missing are absent and none of its checks writes one
(`Suite.runChecks_contents`).

In the default suites only "bob" must be missing. They write "foo", "titi" and numbered keys; these
end in a digit (`Check.exists_getLast?_bulkKey`), so none of them is "bob", whatever the stem. Hence
rounds of default suites can follow each other on one client that refines contents, for other
backends and with other options each time: every round finds "bob" absent, passes, and leaves it
absent (`Suite.runRounds_noFalseAlarm`).
-/

set_option autoImplicit false

namespace CacheCheck

/-- The key that a call writes to. -/
def Call.written? : Call → Option String
  | .set key _ => some key
  | .get _ => none

/-! ### Conversations with contents -/

namespace Contents

variable (backend : Backend)

theorem exchanges_writes (keys : List String) (contents : Contents) :
    (client backend).exchanges (keys.map fun key ↦ .set key key) contents =
      keys.map fun key ↦ ⟨.set key key, .stored (.ok ())⟩ :=
  Client.exchanges_writes (fun _ _ _ ↦ rfl) keys contents

theorem exchanges_reads (keys : List String) (contents : Contents) :
    (client backend).exchanges (keys.map .get) contents =
      keys.map fun key ↦ ⟨.get key, .read (.ok (contents key))⟩ :=
  Client.exchanges_reads id (fun _ _ ↦ rfl) (fun _ _ ↦ rfl) keys contents

/-- A key keeps what it has while other keys are written. -/
theorem after_of_not_written {key : String} {calls : List Call}
    (h : ∀ call ∈ calls, call.written? ≠ some key) (contents : Contents) :
    (client backend).after calls contents key = contents key := by
  induction calls generalizing contents with
  | nil => rfl
  | cons call rest ih =>
    rw [Client.after_cons, ih fun other hother ↦ h other (List.mem_cons_of_mem call hother)]
    have hcall := h call List.mem_cons_self
    cases call with
    | set other value =>
      have hne : key ≠ other := by
        rintro rfl
        exact hcall rfl
      exact if_neg hne
    | get other => rfl

/-- A key that was given its own name keeps it while others are. -/
theorem after_writes_of_mem {key : String} {keys : List String} (hkey : key ∈ keys)
    (contents : Contents) :
    (client backend).after (keys.map fun key ↦ .set key key) contents key = some key := by
  have hkeeps : ∀ (rest : List String) (contents : Contents), contents key = some key →
      (client backend).after (rest.map fun key ↦ .set key key) contents key = some key := by
    intro rest
    induction rest with
    | nil => exact fun contents h ↦ h
    | cons other rest ih =>
      intro contents h
      refine ih _ ?_
      show (if key = other then some other else contents key) = some key
      split
      · next heq => rw [heq]
      · exact h
  obtain ⟨first, rest, rfl⟩ := List.append_of_mem hkey
  rw [List.map_append, Client.after_append, List.map_cons, Client.after_cons]
  exact hkeeps rest _ (if_pos rfl)

end Contents

/-! ### Checks that pass -/

namespace Check

variable {σ : Type}

/-- The keys that a check writes to. -/
def writtenKeys (check : Check) : List String :=
  check.plan.filterMap Call.written?

theorem writtenKeys_bulk (stem : String) (count : Nat) :
    (bulk stem count).writtenKeys = bulkKeys stem count := by
  have hwrite : Call.written? ∘ (fun key ↦ .set key key) = some := rfl
  have hread : Call.written? ∘ .get = fun _ ↦ none := rfl
  rw [writtenKeys, plan, List.filterMap_append, List.filterMap_map, List.filterMap_map, hwrite,
    hread, List.filterMap_some]
  simp

/-- A check passes when it has no objection to any answer. -/
theorem run_of_good {client : Client σ} {check : Check} {state : σ}
    (h : ∀ exchange ∈ client.exchanges check.plan state, check.objection? exchange = none) :
    (check.run client state).verdict = .ok () ∧
      (check.run client state).state = client.after check.plan state := by
  have htraces := run_traces client check state
  have hall : (check.run client state).exchanges = client.exchanges check.plan state := by
    rw [htraces.exchanges_eq]
    exact upTo_eq_self_of_none fun exchange hmem ↦ isBad_eq_false_iff.mpr (h exchange hmem)
  constructor
  · rw [htraces.verdict_eq, verdictOf_eq_ok_iff, Option.bind_eq_none_iff, hall]
    exact fun last hlast ↦ h last (List.mem_of_getLast? hlast)
  · rw [htraces.state_eq, Progress.calls, hall, client.map_call_exchanges]

/-- Contents are what every check expects, but for keys that must be missing and are not. -/
theorem objection?_contents (backend : Backend) {check : Check} {contents : Contents}
    (hmissing : ∀ key, check = .missing key → contents key = none) :
    ∀ exchange ∈ (Contents.client backend).exchanges check.plan contents,
      check.objection? exchange = none := by
  intro exchange hmem
  cases check with
  | roundTrip key value | delayed key value milliseconds =>
    simp only [plan, Client.exchanges, List.mem_cons, List.not_mem_nil, or_false] at hmem
    rcases hmem with rfl | rfl
    · rfl
    · simp [objection?, Answer.objection?, complaint?, Contents.client, Contents.put]
  | missing key =>
    simp only [plan, Client.exchanges, List.mem_singleton] at hmem
    subst hmem
    simp [objection?, Answer.objection?, complaint?, Contents.client, hmissing key rfl]
  | probe key =>
    simp only [plan, Client.exchanges, List.mem_singleton] at hmem
    subst hmem
    rfl
  | bulk stem count =>
    rw [plan, Client.exchanges_append, Contents.exchanges_writes, Contents.exchanges_reads] at hmem
    rcases List.mem_append.mp hmem with hwrite | hread
    · obtain ⟨key, -, rfl⟩ := List.mem_map.mp hwrite
      rfl
    · obtain ⟨key, hkey, rfl⟩ := List.mem_map.mp hread
      have hvalue := Contents.after_writes_of_mem backend hkey contents
      simp [objection?, Answer.objection?, complaint?, Call.key, hvalue]

theorem run_contents (backend : Backend) {check : Check} {contents : Contents}
    (hmissing : ∀ key, check = .missing key → contents key = none) :
    (check.run (Contents.client backend) contents).verdict = .ok () ∧
      (check.run (Contents.client backend) contents).state =
        (Contents.client backend).after check.plan contents :=
  run_of_good (objection?_contents backend hmissing)

/-- A numbered key ends in a digit. -/
theorem exists_getLast?_bulkKey (stem : String) (index : Nat) :
    ∃ c, (bulkKey stem index).toList.getLast? = some c ∧ c.isDigit = true := by
  have hdigits : (toString index).toList = Nat.toDigits 10 index := Nat.toList_repr
  have hlast := List.getLast?_eq_some_getLast (Nat.toDigits_ne_nil (n := index) (b := 10))
  refine ⟨_, ?_, Nat.isDigit_of_mem_toDigits (by omega) (by omega) (List.mem_of_getLast? hlast)⟩
  rw [bulkKey, String.toList_append, hdigits, List.getLast?_append, hlast, Option.some_or]

end Check

/-! ### Suites that pass -/

namespace Suite

variable {σ : Type}

/-- A suite passes on contents in which the keys that must be missing are absent, when it writes
none of them; it leaves what its checks wrote. -/
theorem runChecks_contents (backend : Backend) (onFailure : OnFailure) {checks : List Check}
    {contents : Contents}
    (hmissing : ∀ key, .missing key ∈ checks →
      contents key = none ∧ ∀ check ∈ checks, key ∉ check.writtenKeys) :
    (∀ entry ∈ (runChecks (Contents.client backend) onFailure checks contents).checks,
        entry.status = .passed) ∧
      (runChecks (Contents.client backend) onFailure checks contents).state =
        (Contents.client backend).after (checks.flatMap Check.plan) contents := by
  induction checks generalizing contents with
  | nil =>
    constructor
    · intro entry hentry
      cases hentry
    · rfl
  | cons check rest ih =>
    obtain ⟨hverdict, hstate⟩ := Check.run_contents backend fun key hkey ↦
      (hmissing key (hkey ▸ List.mem_cons_self)).1
    have hpassed :
        ((check.run (Contents.client backend) contents).report check).status = .passed := by
      rw [Check.Progress.report, hverdict]
    have hgoes : ¬ (((check.run (Contents.client backend) contents).report check).status =
        .failed ∧ onFailure = .stop) := by
      rw [hpassed]
      rintro ⟨hfailed, -⟩
      cases hfailed
    have hrest : ∀ key, .missing key ∈ rest →
        (check.run (Contents.client backend) contents).state key = none ∧
          ∀ other ∈ rest, key ∉ other.writtenKeys := by
      intro key hkey
      obtain ⟨habsent, hwritten⟩ := hmissing key (List.mem_cons_of_mem check hkey)
      refine ⟨?_, fun other hother ↦ hwritten other (List.mem_cons_of_mem check hother)⟩
      rw [hstate, Contents.after_of_not_written, habsent]
      exact fun call hcall heq ↦ hwritten check List.mem_cons_self
        (List.mem_filterMap.mpr ⟨call, hcall, heq⟩)
    obtain ⟨hentries, hafter⟩ := ih hrest
    rw [runChecks_cons_of_goes _ rest hgoes, List.flatMap_cons, Client.after_append, ← hstate]
    refine ⟨fun entry hentry ↦ ?_, hafter⟩
    rcases List.mem_cons.mp hentry with rfl | hlater
    · exact hpassed
    · exact hentries entry hlater

/-! ### Rounds of default suites -/

/-- One run of a default suite. -/
structure Round where
  backend : Backend
  options : Options
  onFailure : OnFailure

namespace Round

def suite (round : Round) : Suite :=
  .forBackend round.backend round.options

/-- A key that the default suites may write to. -/
def Touches (round : Round) (key : String) : Prop :=
  key = "foo" ∨ key = "titi" ∨
    ∃ index < round.options.bulkCount, key = Check.bulkKey round.options.bulkStem index

theorem touches_of_mem_writtenKeys {round : Round} {check : Check} {key : String}
    (hcheck : check ∈ round.suite.checks) (hkey : key ∈ check.writtenKeys) :
    round.Touches key := by
  have hbulk : key ∈ (Check.bulk round.options.bulkStem round.options.bulkCount).writtenKeys →
      round.Touches key := by
    rw [Check.writtenKeys_bulk, Check.bulkKeys, List.mem_map]
    rintro ⟨index, hindex, rfl⟩
    exact Or.inr (Or.inr ⟨index, List.mem_range.mp hindex, rfl⟩)
  have hfoo : ∀ value, key ∈ (Check.roundTrip "foo" value).writtenKeys → round.Touches key :=
    fun value h ↦ Or.inl (List.mem_singleton.mp h)
  have htiti : ∀ value milliseconds,
      key ∈ (Check.delayed "titi" value milliseconds).writtenKeys → round.Touches key :=
    fun value milliseconds h ↦ Or.inr (Or.inl (List.mem_singleton.mp h))
  obtain ⟨backend, options, onFailure⟩ := round
  cases backend with
  | redis =>
    simp only [suite, forBackend, List.mem_cons, List.not_mem_nil, or_false] at hcheck
    rcases hcheck with rfl | rfl
    · exact hfoo _ hkey
    · cases hkey
  | redisCluster =>
    simp only [suite, forBackend, List.mem_cons, List.not_mem_nil, or_false] at hcheck
    rcases hcheck with rfl | rfl | rfl
    · exact hfoo _ hkey
    · cases hkey
    · exact hbulk hkey
  | memcached =>
    simp only [suite, forBackend, List.mem_cons, List.not_mem_nil, or_false] at hcheck
    rcases hcheck with rfl | rfl | rfl | rfl | rfl | rfl
    · exact htiti _ _ hkey
    · exact hfoo _ hkey
    all_goals cases hkey

theorem eq_bob_of_missing {round : Round} {key : String}
    (hcheck : .missing key ∈ round.suite.checks) : key = "bob" := by
  obtain ⟨backend, options, onFailure⟩ := round
  cases backend <;> simp [suite, forBackend] at hcheck <;> exact hcheck

theorem not_touches_bob (round : Round) : ¬ round.Touches "bob" := by
  rintro (hfoo | htiti | ⟨index, -, hbulk⟩)
  · exact absurd hfoo (by decide)
  · exact absurd htiti (by decide)
  · obtain ⟨c, hlast, hdigit⟩ := Check.exists_getLast?_bulkKey round.options.bulkStem index
    rw [← hbulk] at hlast
    cases hlast
    cases hdigit

/-- A round passes on contents without "bob", and changes them only where it may write. -/
theorem run_contents (round : Round) (backend : Backend) {contents : Contents}
    (hbob : contents "bob" = none) :
    let run := round.suite.run (Contents.client backend) round.onFailure contents
    (∀ entry ∈ run.checks, entry.status = .passed) ∧
      (∀ key, ¬ round.Touches key → run.state key = contents key) := by
  have hmissing : ∀ key, .missing key ∈ round.suite.checks →
      contents key = none ∧ ∀ check ∈ round.suite.checks, key ∉ check.writtenKeys := by
    intro key hkey
    obtain rfl := eq_bob_of_missing hkey
    exact ⟨hbob, fun check hcheck hwritten ↦
      round.not_touches_bob (touches_of_mem_writtenKeys hcheck hwritten)⟩
  obtain ⟨hpassed, hstate⟩ := runChecks_contents backend round.onFailure hmissing
  refine ⟨hpassed, fun key htouches ↦ ?_⟩
  rw [Suite.run, hstate]
  refine Contents.after_of_not_written backend (fun call hcall hwritten ↦ htouches ?_) contents
  obtain ⟨check, hcheck, hplan⟩ := List.mem_flatMap.mp hcall
  exact touches_of_mem_writtenKeys hcheck (List.mem_filterMap.mpr ⟨call, hplan, hwritten⟩)

end Round

/-- The runs of rounds that follow each other on one client. -/
def runRounds (client : Client σ) : List Round → σ → List (Run σ)
  | [], _ => []
  | round :: rest, state =>
    let run := round.suite.run client round.onFailure state
    run :: runRounds client rest run.state

/-- The state that rounds leave a client in. -/
def afterRounds (client : Client σ) (rounds : List Round) (state : σ) : σ :=
  rounds.foldl (fun state round ↦ (round.suite.run client round.onFailure state).state) state

/-- What rounds of default suites come to on a client that is healthy. -/
structure NoFalseAlarm (client : Client σ) (holds : σ → Contents → Prop) (rounds : List Round)
    (state : σ) (contents : Contents) : Prop where
  /-- Every round has an entry for each check of its suite. -/
  names : (runRounds client rounds state).map (fun run ↦ run.checks.map CheckReport.name) =
    rounds.map fun round ↦ round.suite.checks.map Check.name
  passed : ∀ run ∈ runRounds client rounds state, ∀ entry ∈ run.checks, entry.status = .passed
  /-- The client is left with contents that differ only in keys that the rounds may write. -/
  left : ∃ contents', holds (afterRounds client rounds state) contents' ∧
    (∀ key, contents' key ≠ contents key → ∃ round ∈ rounds, round.Touches key) ∧
    contents' "bob" = none

/-- Assumes: a healthy client, in a state that holds contents without "bob". Rounds of default
suites on that client, however many and whatever their backends, options and ways to go on after a
failure, report no failure, and leave a client they can be run on again. -/
theorem runRounds_noFalseAlarm {client : Client σ} {holds : σ → Contents → Prop}
    (hhealthy : client.Healthy holds) (rounds : List Round) {state : σ} {contents : Contents}
    (hstate : holds state contents) (hbob : contents "bob" = none) :
    NoFalseAlarm client holds rounds state contents := by
  induction rounds generalizing state contents with
  | nil =>
    refine ⟨rfl, ?_, contents, hstate, ?_, hbob⟩
    · intro run hrun
      cases hrun
    · exact fun key hkey ↦ absurd rfl hkey
  | cons round rest ih =>
    obtain ⟨hchecks, -, hnext⟩ := runChecks_of_refines hhealthy round.onFailure
      (fun (check : Check) (_ : check ∈ round.suite.checks) call _ ↦ trivial) hstate
    obtain ⟨hpassed, hkept⟩ := round.run_contents client.backend hbob
    have hbob' := (hkept "bob" round.not_touches_bob).trans hbob
    have hlater := ih hnext hbob'
    obtain ⟨contents', hholds, hdiffers, habsent⟩ := hlater.left
    refine ⟨?_, ?_, contents', hholds, fun key hkey ↦ ?_, habsent⟩
    · have hnames := map_name_runChecks client round.onFailure round.suite.checks state
      rw [runRounds, List.map_cons, List.map_cons]
      exact List.cons_eq_cons.mpr ⟨hnames, hlater.names⟩
    · intro run hrun
      rcases List.mem_cons.mp hrun with rfl | hrest
      · rw [Suite.run, hchecks]
        exact hpassed
      · exact hlater.passed run hrest
    · by_cases htouches : round.Touches key
      · exact ⟨round, List.mem_cons_self, htouches⟩
      · obtain ⟨other, hother, hwrites⟩ := hdiffers key fun heq ↦
          hkey (heq.trans (hkept key htouches))
        exact ⟨other, List.mem_cons_of_mem round hother, hwrites⟩

/-- A cache in memory that has an old "foo", and rounds with stems that come close to "bob". -/
theorem runRounds_noFalseAlarm_memory :
    let client := Memory.client .redis
    let state := Memory.seed {} "foo" "old"
    let contents := Contents.empty.put "foo" "old"
    let rounds : List Round :=
      [⟨.redisCluster, ⟨0, 3, "bo"⟩, .stop⟩, ⟨.memcached, ⟨500, 0, ""⟩, .keepGoing⟩,
        ⟨.redisCluster, ⟨0, 2, "bob"⟩, .keepGoing⟩]
    client.Healthy Memory.Holds ∧ state.Holds contents ∧ contents "bob" = none ∧
      NoFalseAlarm client Memory.Holds rounds state contents := by
  intro client state contents rounds
  have hhealthy : client.Healthy Memory.Holds := Memory.client_healthy .redis
  have hstate : state.Holds contents := Memory.holds_empty.seed "foo" "old"
  have hbob : contents "bob" = none := rfl
  exact ⟨hhealthy, hstate, hbob, runRounds_noFalseAlarm hhealthy rounds hstate hbob⟩

end Suite

end CacheCheck
