import CacheCheck.Proofs.Memory.Calls

/-!
A cache in memory as its history tells it: the texts that it was given, the way in which it was told
to misbehave, and the calls on it, in order. No state is kept of these. Under a key is what the last
write put there that was not lost, or else the last text that was given (`History.entry?`), and each
read is answered from the history up to it. The cache does all of this, and nothing else, whatever
its history is (`client_tellsHistory`).
-/

set_option autoImplicit false

namespace CacheCheck.Memory

/-- What became of a cache in memory. -/
structure History where
  seeds : List (String × String) := []
  defect : Option Defect := none
  calls : List Call := []

/-- What a cache appends to the values that are read. -/
def Defect.suffix : Option Defect → String
  | some (.corruptReads suffix) => suffix
  | _ => ""

theorem Defect.onRead_eq (defect : Option Defect) (value : String) :
    onRead defect value = value ++ suffix defect := by
  rcases defect with _ | _ | _ | _
  case some.corruptReads => rfl
  all_goals exact String.append_empty.symm

namespace History

variable (history : History)

/-- The cache before the first call. -/
def start : Memory :=
  { Memory.given history.seeds with defect := history.defect }

/-- The cache after the last call. -/
def finish (backend : Backend) : Memory :=
  (client backend).after history.calls history.start

/-- The history in front of one of the calls. -/
def before (index : Nat) : History :=
  { history with calls := history.calls.take index }

/-- The writes that were not lost, in order. -/
def kept : List (String × String) :=
  history.start.stored history.calls

/-- What is under a key: what was last written there, or else what was last given. -/
def entry? (key : String) : Option String :=
  (Store.lastUnder key history.kept).or (Store.lastUnder key history.seeds)

/-- The answer to a further call. -/
def answer : Call → Answer
  | .set _ _ => .stored (.ok ())
  | .get key => .read (.ok ((history.entry? key).map (· ++ Defect.suffix history.defect)))

theorem start_eq : history.start =
    { entries := Store.empty.insertAll history.seeds, defect := history.defect } := by
  rw [start, given_eq]

theorem entries_finish (backend : Backend) :
    (history.finish backend).entries = Store.empty.insertAll (history.seeds ++ history.kept) := by
  rw [finish, after_entries, start_eq, ← Store.insertAll_append, kept, start_eq]

theorem get?_finish (backend : Backend) (key : String) :
    (history.finish backend).entries.get? key = history.entry? key := by
  rw [finish, after_entries, start_eq, Store.get?_insertAll, Store.get?_insertAll,
    Store.get?_empty, Option.or_none, entry?, kept, start_eq]

/-- A call is answered from the history in front of it. -/
theorem answer_finish (backend : Backend) (call : Call) :
    ((client backend).answer call (history.finish backend)).1 = history.answer call := by
  cases call with
  | set key value => rfl
  | get key =>
    have hdefect : (history.finish backend).defect = history.defect :=
      after_defect backend history.calls history.start
    have hread : Defect.onRead history.defect = (· ++ Defect.suffix history.defect) :=
      funext (Defect.onRead_eq history.defect)
    simp only [Client.answer_get, client, Memory.get, get?_finish, hdefect, hread, answer]

end History

/-- What a history tells of a cache in memory. -/
structure TellsHistory (backend : Backend) (history : History) : Prop where
  /-- It makes no difference when the cache is told to misbehave, if this is before the calls. -/
  start_eq (first second : List (String × String)) : history.seeds = first ++ second →
    second.foldl (fun m seed ↦ m.seed seed.1 seed.2)
      { Memory.given first with defect := history.defect } = history.start
  /-- No call fails, and each read finds what its key has at its place in the history. -/
  exchanges_eq : (client backend).exchanges history.calls history.start =
    history.calls.mapIdx fun index call ↦ ⟨call, (history.before index).answer call⟩
  /-- The record has a line for each call, and none for the texts that were given. -/
  calls_eq : (history.finish backend).calls = history.calls.map callLine
  get?_eq (key : String) : (history.finish backend).entries.get? key = history.entry? key
  /-- Reads leave the entries as they are. -/
  entries_eq (keys : List String) :
    ((client backend).after (keys.map .get) (history.finish backend)).entries =
      (history.finish backend).entries
  /-- There are as many entries as there are keys that were given a text or a value. -/
  size_eq : (history.finish backend).entries.size =
    ((history.seeds ++ history.kept).map Prod.fst).dedup.length

/-- A cache in memory is what its history tells. -/
theorem client_tellsHistory (backend : Backend) (history : History) :
    TellsHistory backend history where
  start_eq first second hseeds := by
    rw [history.start_eq, hseeds, foldl_seed, given_eq, Store.insertAll_append]
  exchanges_eq := by
    rw [Client.exchanges_eq_mapIdx]
    refine congrArg (List.mapIdx · history.calls) ?_
    funext index call
    exact congrArg (Exchange.mk call) ((history.before index).answer_finish backend call)
  calls_eq := by
    have hnone : history.start.calls = [] := by
      rw [history.start_eq]
      rfl
    rw [History.finish, after_calls, hnone, List.nil_append]
  get?_eq := history.get?_finish backend
  entries_eq keys := after_reads_entries backend keys (history.finish backend)
  size_eq := by rw [history.entries_finish, Store.size_insertAll]

end CacheCheck.Memory
