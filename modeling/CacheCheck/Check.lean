import CacheCheck.Client
import CacheCheck.Log

/-!
Smoke checks. A check is a short plan of writes and reads, each read compared with a literal
expectation. Running a check follows the plan until a call fails or a comparison does, and counts
how far it came.
-/

set_option autoImplicit false

namespace CacheCheck

inductive Check
  /-- Write a value and read it back. -/
  | roundTrip (key value : String)
  /-- The same, with a pause of so many milliseconds before the read. -/
  | delayed (key value : String) (milliseconds : Nat)
  /-- A key must not be present. -/
  | missing (key : String)
  /-- Read a key and report whatever comes back. -/
  | probe (key : String)
  /-- Write `count` numbered keys, each holding its own name, then read them all back. -/
  | bulk (stem : String) (count : Nat)
  deriving DecidableEq, Repr

/-- How many writes and reads a check made, and the value read by a check of one key. -/
structure Outcome where
  writes : Nat := 0
  reads : Nat := 0
  observed : Option String := none
  deriving DecidableEq, Repr, Inhabited

/-- What happened while checks ran, in order. -/
inductive Event
  | started (backend : Backend) (name : String)
  | failed (backend : Backend) (name : String) (failure : Failure)
  | paused (milliseconds : Nat) (key : String)
  | called (call : Call) (answer : Answer)

/-- The log lines of an event, where a client announces its calls. -/
def Event.log (announce : Call → List LogLine) : Event → List LogLine
  | .started backend name => [⟨.info, backend.name ++ ": " ++ name⟩]
  | .failed backend name failure =>
    [⟨.warn, backend.name ++ ": " ++ name ++ " failed: " ++ failure.message⟩]
  | .paused milliseconds key =>
    [⟨.debug, "sleeping " ++ Span.text milliseconds ++ " before reading " ++ quote key⟩]
  | .called call _ => announce call

/-- The call of an event, if it is one. -/
def Event.call? : Event → Option Call
  | .called call _ => some call
  | _ => none

namespace Check

/-- The key at one place of a bulk write. -/
def bulkKey (stem : String) (index : Nat) : String :=
  stem ++ toString index

def bulkKeys (stem : String) (count : Nat) : List String :=
  (List.range count).map (bulkKey stem)

/-- A short label for reports. -/
def name : Check → String
  | roundTrip key _ => "set/get " ++ key
  | delayed key _ milliseconds =>
    "set/get " ++ key ++ " after " ++ toString milliseconds ++ "ms"
  | missing key => "missing " ++ key
  | probe key => "probe " ++ key
  | bulk stem 0 => "bulk " ++ stem ++ "* (empty)"
  | bulk stem (last + 1) => "bulk " ++ bulkKey stem 0 ++ ".." ++ bulkKey stem last

/-- One step of a check. -/
inductive Step
  | write (key value : String)
  | pause (milliseconds : Nat) (key : String)
  /-- Read a key that must hold the value. -/
  | expect (key value : String)
  /-- Read a key that must be absent. -/
  | absent (key : String)
  | observe (key : String)
  /-- Let go of the value observed last. -/
  | forget
  deriving DecidableEq, Repr

/-- The steps of a check, all of which run when nothing goes wrong. -/
def steps : Check → List Step
  | roundTrip key value => [.write key value, .expect key value]
  | delayed key value milliseconds =>
    [.write key value, .pause milliseconds key, .expect key value]
  | missing key => [.absent key]
  | probe key => [.observe key]
  | bulk stem count =>
    let keys := bulkKeys stem count
    keys.map (fun key ↦ .write key key) ++ keys.map (fun key ↦ .expect key key) ++ [.forget]

/-- The call of a step, if it makes one. -/
def Step.call? : Step → Option Call
  | .write key value => some (.set key value)
  | .expect key _ | .absent key | .observe key => some (.get key)
  | .pause _ _ | .forget => none

/-- The calls of a check, all of which are made when nothing goes wrong. -/
def plan : Check → List Call
  | roundTrip key value | delayed key value _ => [.set key value, .get key]
  | missing key | probe key => [.get key]
  | bulk stem count =>
    (bulkKeys stem count).map (fun key ↦ .set key key) ++ (bulkKeys stem count).map .get

theorem filterMap_call?_steps (check : Check) : check.steps.filterMap Step.call? = check.plan := by
  cases check with
  | bulk stem count =>
    have hwrite : Step.call? ∘ (fun key ↦ Step.write key key) = fun key ↦ some (.set key key) := rfl
    have hread : Step.call? ∘ (fun key ↦ Step.expect key key) = fun key ↦ some (.get key) := rfl
    simp [steps, plan, Step.call?, List.filterMap_map, hwrite, hread]
  | _ => rfl

/-- How far a check has come: its verdict, its counts, the client's state, and what happened. -/
structure Progress (σ : Type) where
  verdict : Except Failure Unit
  outcome : Outcome
  state : σ
  events : List Event

variable {σ : Type}

/-- What a step makes of a value that was read. -/
def Step.judge (step : Step) (actual : Option String) (outcome : Outcome) :
    Except Failure Unit × Outcome :=
  match step with
  | .expect key value =>
    if actual = some value then (.ok (), { outcome with observed := actual })
    else (.error (.mismatch key value actual), outcome)
  | .absent key =>
    match actual with
    | none => (.ok (), outcome)
    | some found => (.error (.unexpectedValue key found), outcome)
  | .observe _ => (.ok (), { outcome with observed := actual })
  | _ => (.ok (), outcome)

/-- Reads a key and lets the step judge the value. -/
def Step.read (client : Client σ) (step : Step) (key : String) (outcome : Outcome) (state : σ) :
    Progress σ :=
  let (result, state) := client.get key state
  let events := [.called (.get key) (.read result)]
  match result with
  | .error failure => ⟨.error failure, outcome, state, events⟩
  | .ok actual =>
    let (verdict, outcome) := step.judge actual { outcome with reads := outcome.reads + 1 }
    ⟨verdict, outcome, state, events⟩

/-- Runs one step. -/
def Step.run (client : Client σ) (step : Step) (outcome : Outcome) (state : σ) : Progress σ :=
  match step with
  | .write key value =>
    let (result, state) := client.set key value state
    let events := [.called (.set key value) (.stored result)]
    match result with
    | .error failure => ⟨.error failure, outcome, state, events⟩
    | .ok () => ⟨.ok (), { outcome with writes := outcome.writes + 1 }, state, events⟩
  | .pause milliseconds key => ⟨.ok (), outcome, state, [.paused milliseconds key]⟩
  | .expect key _ | .absent key | .observe key => step.read client key outcome state
  | .forget => ⟨.ok (), { outcome with observed := none }, state, []⟩

/-- Runs steps in order, up to the first that fails. -/
def runSteps (client : Client σ) : List Step → Outcome → σ → Progress σ
  | [], outcome, state => ⟨.ok (), outcome, state, []⟩
  | step :: rest, outcome, state =>
    let now := step.run client outcome state
    match now.verdict with
    | .error _ => now
    | .ok () =>
      let later := runSteps client rest now.outcome now.state
      { later with events := now.events ++ later.events }

/-- Runs a check. The counts of a check that fails show how far it got. -/
def run (client : Client σ) (check : Check) (state : σ) : Progress σ :=
  runSteps client check.steps {} state

/-- What a report adds to the name of a check that passed. -/
def detail (check : Check) (outcome : Outcome) : Option String :=
  match check with
  | bulk _ _ => some (toString outcome.writes ++ " keys")
  | missing _ | probe _ => some (outcome.observed.getD "(nil)")
  | roundTrip _ _ | delayed _ _ _ => outcome.observed

end Check

end CacheCheck
