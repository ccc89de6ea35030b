import CacheCheck.Proofs.Memcached.Library
import CacheCheck.Proofs.Memory.Calls
import CacheCheck.Proofs.Store

/-!
One report for both wires. A cache in memory and an endpoint that were given the same texts have the
same contents, and a client that leaves the wire to a library refines contents as the cache in
memory does (`likeMemory_of_delivers`). So a suite whose keys and values both wires can carry is
reported alike on all of them, and what they have afterwards is the same (`run_oneReport`): on
either wire, and whether each request has a connection of its own or all share one.
-/

set_option autoImplicit false

namespace CacheCheck

/-! ### Texts that caches are given -/

/-- Contents that were given texts, in order. -/
def Contents.given (seeds : List (String × String)) : Contents :=
  seeds.foldl (fun contents seed ↦ contents.put seed.1 seed.2) .empty

theorem Memory.holds_given (seeds : List (String × String)) :
    (Memory.given seeds).Holds (.given seeds) := by
  have hfold : ∀ (m : Memory) (contents : Contents), m.Holds contents →
      (seeds.foldl (fun m seed ↦ m.seed seed.1 seed.2) m).Holds
        (seeds.foldl (fun contents seed ↦ contents.put seed.1 seed.2) contents) := by
    induction seeds with
    | nil => exact fun m contents h ↦ h
    | cons seed rest ih => exact fun m contents h ↦ ih _ _ (h.seed seed.1 seed.2)
  exact hfold {} .empty holds_empty

namespace Memcached

/-- The entries of an endpoint that was given texts. -/
def Entries.given (seeds : List (String × String)) : Entries :=
  seeds.foldl (fun entries seed ↦ entries.put seed.1 seed.2) .empty

theorem space_given {seeds : List (String × String)}
    (hseeds : ∀ seed ∈ seeds, (Utf8.encode seed.2).length ≤ longestValue) :
    (Entries.given seeds).space = spaceOf (.given seeds) ∧ (spaceOf (.given seeds)).Fits := by
  have hfold : ∀ (entries : Entries) (contents : Contents), entries.space = spaceOf contents →
      (spaceOf contents).Fits →
      (seeds.foldl (fun entries seed ↦ entries.put seed.1 seed.2) entries).space =
          spaceOf (seeds.foldl (fun contents seed ↦ contents.put seed.1 seed.2) contents) ∧
        (spaceOf (seeds.foldl (fun contents seed ↦ contents.put seed.1 seed.2) contents)).Fits := by
    induction seeds with
    | nil => exact fun entries contents hspace hfits ↦ ⟨hspace, hfits⟩
    | cons seed rest ih =>
      intro entries contents hspace hfits
      refine ih (fun other hother ↦ hseeds other (List.mem_cons_of_mem seed hother)) _ _ ?_ ?_
      · rw [spaceOf_put, ← hspace]
        exact Entries.space_insert entries seed.1 ⟨0, Utf8.encode seed.2⟩
      · rw [spaceOf_put]
        exact KeySpace.fits_put hfits (hseeds seed List.mem_cons_self)
  exact hfold .empty .empty rfl KeySpace.fits_empty

theorem value?_of_space {entries : Entries} {contents : Contents}
    (h : entries.space = spaceOf contents) (key : String) : entries.value? key = contents key := by
  have hread : (fun entry : Entry ↦ Utf8.decodeLossy entry.data) ∘
      (fun value ↦ ⟨0, Utf8.encode value⟩) = id := by
    funext value
    exact Utf8.decodeLossy_encode value
  have hkey : entries.get? key = spaceOf contents key := congrFun h key
  rw [Entries.value?, hkey, spaceOf, Option.map_map, hread, Option.map_id]
  rfl

theorem isSome_of_space {entries : Entries} {contents : Contents}
    (h : entries.space = spaceOf contents) (key : String) :
    (entries.get? key).isSome = (contents key).isSome := by
  have hkey : entries.get? key = spaceOf contents key := congrFun h key
  rw [hkey, spaceOf, Option.isSome_map]

/-! ### Runs -/

section

variable {σ : Type}

/-- A run on an endpoint that cannot be told from one on a cache in memory. -/
structure LikeMemory (client : Client σ) (entries : σ → Entries) (suite : Suite) (target : String)
    (onFailure : OnFailure) (state : σ) (m : Memory) : Prop where
  report_eq : suite.runReport client target onFailure state =
    suite.runReport (Memory.client .memcached) target onFailure m
  /-- Afterwards they have the same texts, under the same keys. -/
  value?_eq (key : String) :
    (entries (suite.run client onFailure state).state).value? key =
      (suite.run (Memory.client .memcached) onFailure m).state.entries.get? key
  size_eq : (entries (suite.run client onFailure state).state).size =
    (suite.run (Memory.client .memcached) onFailure m).state.entries.size

theorem likeMemory_of_delivers {library : Library} {wire : Wire} {transport : Transport σ}
    {keeps : σ → KeySpace → Prop} (hspeaks : library.Speaks wire)
    (hdelivers : transport.Delivers wire keeps) {suite : Suite}
    (hsuite : ∀ check ∈ suite.checks, ∀ call ∈ check.plan, IsSendable call) (target : String)
    (onFailure : OnFailure) {state : σ} {m : Memory} {contents : Contents}
    (hstate : Holds keeps state contents) (hmemory : m.Holds contents) :
    LikeMemory (library.client transport) transport.entries suite target onFailure state m := by
  obtain ⟨hchecks, -, hleft⟩ := Suite.runChecks_of_refines
    (library.client_refines hspeaks hdelivers) onFailure hsuite hstate
  obtain ⟨hchecks', -, hleft'⟩ := Suite.runChecks_of_refines (Memory.client_healthy .memcached)
    onFailure (fun (check : Check) (_ : check ∈ suite.checks) call _ ↦ trivial) hmemory
  have hspace := hdelivers.space_eq hleft.keeps
  have hvalue' (key : String) := congrFun hleft'.get?_eq key
  refine ⟨?_, fun key ↦ ?_, Store.size_eq_of_isSome fun key ↦ ?_⟩
  · exact congrArg (suite.report .memcached target) (hchecks.trans hchecks'.symm)
  · exact (value?_of_space hspace key).trans (hvalue' key).symm
  · exact (isSome_of_space hspace key).trans (congrArg Option.isSome (hvalue' key)).symm

end

/-- What a suite comes to on an endpoint, through libraries for both wires. -/
structure OneReport (libraries : Wire → Library) (suite : Suite) (target : String)
    (onFailure : OnFailure) (seeds : List (String × String)) : Prop where
  /-- Either wire, with a connection for each request, is like memory. -/
  apart (wire : Wire) : LikeMemory ((libraries wire).client .apart) Endpoint.entries suite target
    onFailure { entries := Entries.given seeds } (.given seeds)
  /-- So is either wire with one connection for all requests. -/
  together (wire : Wire) : LikeMemory ((libraries wire).client .together)
    Transport.together.entries suite target onFailure ⟨{ entries := Entries.given seeds }, []⟩
    (.given seeds)
  /-- The report does not tell the wires apart. -/
  wires_eq :
    suite.runReport ((libraries .binary).client .apart) target onFailure
        { entries := Entries.given seeds } =
      suite.runReport ((libraries .ascii).client .apart) target onFailure
        { entries := Entries.given seeds }

/-- Assumes: a library for each wire that speaks it; a suite of calls that both wires carry; and
texts to begin with that fit into a response. The endpoint is reported on like a cache in memory
that was given the same texts, whichever wire is used, and has the same texts afterwards. -/
theorem run_oneReport {libraries : Wire → Library}
    (hspeaks : ∀ wire, (libraries wire).Speaks wire) {suite : Suite}
    (hsuite : ∀ check ∈ suite.checks, ∀ call ∈ check.plan, IsSendable call)
    {seeds : List (String × String)}
    (hseeds : ∀ seed ∈ seeds, (Utf8.encode seed.2).length ≤ longestValue) (target : String)
    (onFailure : OnFailure) : OneReport libraries suite target onFailure seeds := by
  obtain ⟨hspace, hfits⟩ := space_given hseeds
  have hmemory := Memory.holds_given seeds
  have hclosed : Holds Transport.ApartKeeps ({ entries := Entries.given seeds } : Endpoint)
      (.given seeds) := ⟨⟨rfl, hspace⟩, hfits⟩
  have hopen (wire : Wire) : Holds (Transport.TogetherKeeps wire)
      (⟨{ entries := Entries.given seeds }, []⟩ : Transport.Connection) (.given seeds) :=
    ⟨⟨rfl, [], rfl, hspace⟩, hfits⟩
  have hapart (wire : Wire) := likeMemory_of_delivers (hspeaks wire)
    (Transport.apart_delivers wire) hsuite target onFailure hclosed hmemory
  have htogether (wire : Wire) := likeMemory_of_delivers (hspeaks wire)
    (Transport.together_delivers wire) hsuite target onFailure (hopen wire) hmemory
  exact
    { apart := hapart
      together := htogether
      wires_eq := (hapart .binary).report_eq.trans (hapart .ascii).report_eq.symm }

/-- A suite whose keys and values are bits of protocol, through the wires of this project. -/
theorem run_oneReport_protocolText :
    let suite : Suite := ⟨"s", [.roundTrip "STORED" "END\r\n", .roundTrip "get" "", .probe "old",
      .delayed "get" "VALUE get 0 1" 5, .missing "bob", .bulk "k" 2]⟩
    let seeds := [("old", "1\r\n"), ("two words", "2")]
    (∀ wire, (Library.ofWire wire).Speaks wire) ∧
      (∀ wire, (Library.ofWire wire).client .apart = Endpoint.client wire) ∧
      (∀ check ∈ suite.checks, ∀ call ∈ check.plan, IsSendable call) ∧
      (∀ seed ∈ seeds, (Utf8.encode seed.2).length ≤ longestValue) ∧
      OneReport Library.ofWire suite "t" .keepGoing seeds := by
  intro suite seeds
  have hsuite : ∀ check ∈ suite.checks, ∀ call ∈ check.plan, IsSendable call := by decide
  have hseeds : ∀ seed ∈ seeds, (Utf8.encode seed.2).length ≤ longestValue := by decide
  exact ⟨Library.ofWire_speaks, Library.client_ofWire, hsuite, hseeds,
    run_oneReport Library.ofWire_speaks hsuite hseeds "t" .keepGoing⟩

end Memcached

end CacheCheck
