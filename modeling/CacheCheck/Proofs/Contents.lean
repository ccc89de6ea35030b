import CacheCheck.Memory
import CacheCheck.Proofs.Suite.Answers

/-!
Caches as maps. The contents of a cache are the value under each key, and a cache that is nothing
but its contents is a client too (`Contents.client`). Another client refines it when it answers as
the contents that its state stands for, and then stands for those that the call makes
(`Client.Refines`). This may be limited to some calls, such as those whose keys a server takes.

Nothing else about such a client shows in a report: a suite that makes only those calls runs on it
as on the contents (`Suite.runChecks_of_refines`). A client that refines contents for all calls is
healthy, and a cache in memory that was not told to misbehave is (`Memory.client_healthy`).
-/

set_option autoImplicit false

namespace CacheCheck

/-- What is under each key of a cache. -/
abbrev Contents : Type := String → Option String

namespace Contents

def empty : Contents := fun _ ↦ none

/-- The contents after a value was written under a key. -/
def put (contents : Contents) (key value : String) : Contents := fun other ↦
  if other = key then some value else contents other

/-- The cache that is its contents. -/
def client (backend : Backend) : Client Contents where
  backend
  set key value contents := (.ok (), contents.put key value)
  get key contents := (.ok (contents key), contents)
  announce _ := []

end Contents

section

variable {σ : Type} {client : Client σ} {admits : Call → Prop} {holds : σ → Contents → Prop}

/-- To the calls that are admitted, a client answers as the contents that its state holds. -/
structure Client.Refines (client : Client σ) (admits : Call → Prop)
    (holds : σ → Contents → Prop) : Prop where
  /-- A write is accepted, and the key then has the value. -/
  set {state : σ} {contents : Contents} {key value : String} : holds state contents →
    admits (.set key value) →
      ∃ next, client.set key value state = (.ok (), next) ∧ holds next (contents.put key value)
  /-- A read finds what the key has, and changes nothing. -/
  get {state : σ} {contents : Contents} {key : String} : holds state contents →
    admits (.get key) →
      ∃ next, client.get key state = (.ok (contents key), next) ∧ holds next contents

/-- A healthy client is a map to all calls. -/
def Client.Healthy (client : Client σ) (holds : σ → Contents → Prop) : Prop :=
  client.Refines (fun _ ↦ True) holds

namespace Client.Refines

theorem answer (h : client.Refines admits holds) (backend : Backend) {call : Call}
    (hcall : admits call) {state : σ} {contents : Contents} (hstate : holds state contents) :
    (client.answer call state).1 = ((Contents.client backend).answer call contents).1 ∧
      holds (client.answer call state).2 ((Contents.client backend).answer call contents).2 := by
  cases call with
  | set key value =>
    obtain ⟨next, hset, hnext⟩ := h.set hstate hcall
    rw [Client.answer_set, hset]
    exact ⟨rfl, hnext⟩
  | get key =>
    obtain ⟨next, hget, hnext⟩ := h.get hstate hcall
    rw [Client.answer_get, hget]
    exact ⟨rfl, hnext⟩

/-- A client that refines contents has their conversations, and holds what these leave. -/
theorem exchanges (h : client.Refines admits holds) (backend : Backend) {calls : List Call}
    (hcalls : ∀ call ∈ calls, admits call) {state : σ} {contents : Contents}
    (hstate : holds state contents) :
    client.exchanges calls state = (Contents.client backend).exchanges calls contents ∧
      holds (client.after calls state) ((Contents.client backend).after calls contents) := by
  induction calls generalizing state contents with
  | nil => exact ⟨rfl, hstate⟩
  | cons call rest ih =>
    obtain ⟨hanswer, hnext⟩ := h.answer backend (hcalls call List.mem_cons_self) hstate
    obtain ⟨hrest, hafter⟩ :=
      ih (fun other hmem ↦ hcalls other (List.mem_cons_of_mem call hmem)) hnext
    rw [Client.exchanges, Client.exchanges, hanswer, hrest]
    exact ⟨rfl, hafter⟩

end Client.Refines

/-- A suite runs on a client that refines contents as on the contents. -/
theorem Suite.runChecks_of_refines (h : client.Refines admits holds) (onFailure : OnFailure)
    {checks : List Check} (hadmits : ∀ check ∈ checks, ∀ call ∈ check.plan, admits call)
    {state : σ} {contents : Contents} (hstate : holds state contents) :
    let run := runChecks client onFailure checks state
    let ideal := runChecks (Contents.client client.backend) onFailure checks contents
    run.checks = ideal.checks ∧ run.exchanges = ideal.exchanges ∧ holds run.state ideal.state := by
  have hgives := gives_runChecks (Contents.client client.backend) onFailure checks contents
  have hcalls : ∀ call ∈
      (runChecks (Contents.client client.backend) onFailure checks contents).calls,
        admits call := by
    intro call hcall
    obtain ⟨check, hcheck, hplan⟩ := exists_plan_of_mem_calls hcall
    exact hadmits check hcheck call hplan
  obtain ⟨hexchanges, hafter⟩ := h.exchanges client.backend hcalls hstate
  have hsame : client.Gives state
      (runChecks (Contents.client client.backend) onFailure checks contents).exchanges :=
    hexchanges.trans hgives
  have hbackend : client.backend = (Contents.client client.backend).backend := rfl
  simp only
  rw [runChecks_eq_of_gives hbackend hsame, runChecks_state_eq (Contents.client client.backend)]
  exact ⟨rfl, rfl, hafter⟩

end

/-! ### Caches in memory -/

namespace Memory

/-- A cache in memory that has these contents, and does not misbehave. -/
structure Holds (m : Memory) (contents : Contents) : Prop where
  defect_eq : m.defect = none
  get?_eq : m.entries.get? = contents

theorem client_healthy (backend : Backend) : (client backend).Healthy Holds where
  set {m contents key value} hholds _ := by
    refine ⟨_, rfl, hholds.defect_eq, ?_⟩
    funext other
    have hkept : Defect.drops m.defect key = false := by
      rw [hholds.defect_eq]
      rfl
    rw [hkept, if_neg Bool.false_ne_true, Store.get?_insert, hholds.get?_eq, Contents.put]
  get {m contents key} hholds _ := by
    refine ⟨(Memory.get key m).2, Prod.ext ?_ rfl, hholds.defect_eq, hholds.get?_eq⟩
    have hread : Defect.onRead m.defect = id := by
      rw [hholds.defect_eq]
      rfl
    change Except.ok ((m.entries.get? key).map (Defect.onRead m.defect)) = _
    rw [hread, Option.map_id, hholds.get?_eq]
    rfl

theorem holds_empty : Holds {} .empty := ⟨rfl, rfl⟩

theorem Holds.seed {m : Memory} {contents : Contents} (h : m.Holds contents)
    (key value : String) : (m.seed key value).Holds (contents.put key value) where
  defect_eq := h.defect_eq
  get?_eq := by
    funext other
    rw [Memory.seed, Store.get?_insert, h.get?_eq, Contents.put]

end Memory

end CacheCheck
