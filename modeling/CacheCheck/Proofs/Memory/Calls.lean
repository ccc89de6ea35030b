import CacheCheck.Memory
import CacheCheck.Proofs.Exchange
import CacheCheck.Proofs.Store

/-!
What calls leave behind in a cache in memory. Each call adds its line to the record and is accepted;
a write stores its value under its key, unless the cache was told to lose it (`Keeps`), and a read
stores nothing. From what one call does follows, by induction on the calls, what is left after any
number of them: the pairs of the writes that were kept, in order (`after_entries`).
-/

set_option autoImplicit false

namespace CacheCheck.Memory

/-- A cache in memory that was given texts. -/
def given (seeds : List (String × String)) : Memory :=
  seeds.foldl (fun m seed ↦ m.seed seed.1 seed.2) {}

/-- Texts that a cache is given are stored, and leave no line in the record. -/
theorem foldl_seed (seeds : List (String × String)) (m : Memory) :
    seeds.foldl (fun m seed ↦ m.seed seed.1 seed.2) m =
      { m with entries := m.entries.insertAll seeds } := by
  induction seeds generalizing m with
  | nil => rfl
  | cons seed rest ih => exact ih (m.seed seed.1 seed.2)

theorem given_eq (seeds : List (String × String)) :
    given seeds = { entries := Store.empty.insertAll seeds } :=
  foldl_seed seeds {}

/-- Whether writes under a key are kept. -/
def Keeps (m : Memory) (key : String) : Prop :=
  match m.defect with
  | some .dropWrites => False
  | some (.dropStem stem) => ¬ stem.toList <+: key.toList
  | _ => True

theorem drops_eq_false_iff (m : Memory) (key : String) :
    Defect.drops m.defect key = false ↔ m.Keeps key := by
  unfold Defect.drops Keeps
  cases m.defect with
  | none => simp
  | some defect => cases defect <;> simp [Bool.eq_false_iff]

instance (m : Memory) (key : String) : Decidable (m.Keeps key) :=
  decidable_of_iff _ (m.drops_eq_false_iff key)

/-- What a read finds under a key. -/
def found (m : Memory) (key : String) : Option String :=
  (m.entries.get? key).map (Defect.onRead m.defect)

/-- What a call stores, and under which key. -/
def stores? (m : Memory) : Call → Option (String × String)
  | .set key value => if m.Keeps key then some (key, value) else none
  | .get _ => none

/-- What calls store, in order. -/
def stored (m : Memory) (calls : List Call) : List (String × String) :=
  calls.filterMap m.stores?

/-! ### One call -/

variable (backend : Backend)

theorem answer_defect (call : Call) (m : Memory) :
    ((client backend).answer call m).2.defect = m.defect := by
  cases call <;> rfl

theorem answer_calls (call : Call) (m : Memory) :
    ((client backend).answer call m).2.calls = m.calls ++ [callLine call] := by
  cases call <;> exact List.reverse_cons

theorem answer_entries (call : Call) (m : Memory) :
    ((client backend).answer call m).2.entries = m.entries.insertAll (m.stored [call]) := by
  cases call with
  | get key => rfl
  | set key value =>
    have hkeeps := m.drops_eq_false_iff key
    simp only [Client.answer_set, client, Memory.set, stored, List.filterMap_cons, stores?]
    cases hdrops : Defect.drops m.defect key with
    | false =>
      rw [if_pos (hkeeps.mp hdrops)]
      rfl
    | true =>
      rw [if_neg (mt hkeeps.mpr (by simp [hdrops]))]
      rfl

/-! ### Any number of calls -/

theorem after_defect (calls : List Call) (m : Memory) :
    ((client backend).after calls m).defect = m.defect := by
  induction calls generalizing m with
  | nil => rfl
  | cons call rest ih => rw [Client.after_cons, ih, answer_defect]

/-- The record has a line for each call, in order. -/
theorem after_calls (calls : List Call) (m : Memory) :
    ((client backend).after calls m).calls = m.calls ++ calls.map callLine := by
  induction calls generalizing m with
  | nil => exact (List.append_nil _).symm
  | cons call rest ih =>
    rw [Client.after_cons, ih, answer_calls, List.append_assoc, List.map_cons]
    rfl

/-- The entries are those of the writes that were kept. -/
theorem after_entries (calls : List Call) (m : Memory) :
    ((client backend).after calls m).entries = m.entries.insertAll (m.stored calls) := by
  induction calls generalizing m with
  | nil => rfl
  | cons call rest ih =>
    have hstored : ((client backend).answer call m).2.stored rest = m.stored rest := by
      cases call <;> rfl
    have hfirst : m.stored ([call] ++ rest) = m.stored [call] ++ m.stored rest :=
      List.filterMap_append
    rw [List.singleton_append] at hfirst
    rw [Client.after_cons, ih, answer_entries, hstored, hfirst, Store.insertAll_append]

theorem after_reads_entries (keys : List String) (m : Memory) :
    ((client backend).after (keys.map .get) m).entries = m.entries := by
  have hnone : m.stored (keys.map .get) = [] := by
    simp [stored, stores?]
  rw [after_entries, hnone]
  rfl

theorem mem_stored_writes_iff {keys : List String} {m : Memory} {key value : String} :
    (key, value) ∈ m.stored (keys.map fun key ↦ .set key key) ↔
      (key ∈ keys ∧ m.Keeps key) ∧ value = key := by
  simp only [stored, List.mem_filterMap, List.mem_map]
  constructor
  · rintro ⟨_, ⟨other, hmem, rfl⟩, hstores⟩
    simp only [stores?] at hstores
    split at hstores <;> cases hstores
    next hkept => exact ⟨⟨hmem, hkept⟩, rfl⟩
  · rintro ⟨⟨hmem, hkept⟩, rfl⟩
    exact ⟨_, ⟨value, hmem, rfl⟩, if_pos hkept⟩

/-- Keys that were given their own names have them, but for those whose writes are lost. -/
theorem get?_after_writes (keys : List String) (m : Memory) (key : String) :
    ((client backend).after (keys.map fun key ↦ .set key key) m).entries.get? key =
      if key ∈ keys ∧ m.Keeps key then some key else m.entries.get? key := by
  rw [after_entries, Store.get?_insertAll]
  cases hlast : Store.lastUnder key (m.stored (keys.map fun key ↦ .set key key)) with
  | some value =>
    obtain ⟨hkept, rfl⟩ := mem_stored_writes_iff.mp (Store.mem_of_lastUnder hlast)
    rw [if_pos hkept]
    rfl
  | none =>
    have hnot : ¬ (key ∈ keys ∧ m.Keeps key) := fun hkept ↦ by
      have hmem := mem_stored_writes_iff.mpr ⟨hkept, rfl⟩
      have hsome := (Store.isSome_lastUnder_iff key _).mpr (List.mem_map_of_mem hmem)
      rw [hlast] at hsome
      cases hsome
    rw [if_neg hnot]
    rfl

theorem exchanges_writes (keys : List String) (m : Memory) :
    (client backend).exchanges (keys.map fun key ↦ .set key key) m =
      keys.map fun key ↦ ⟨.set key key, .stored (.ok ())⟩ :=
  Client.exchanges_writes (fun _ _ _ ↦ rfl) keys m

theorem exchanges_reads (keys : List String) (m : Memory) :
    (client backend).exchanges (keys.map .get) m =
      keys.map fun key ↦ ⟨.get key, .read (.ok (m.found key))⟩ :=
  Client.exchanges_reads found (fun _ _ ↦ rfl) (fun _ _ ↦ rfl) keys m

end CacheCheck.Memory
