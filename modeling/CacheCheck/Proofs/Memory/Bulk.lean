import Mathlib.Data.List.Nodup
import Mathlib.Data.Nat.Find
import CacheCheck.Proofs.Memory.Calls
import CacheCheck.Proofs.Store
import CacheCheck.Proofs.Suite.Answers
import CacheCheck.Proofs.Text.Decimal

/-!
Bulk checks of a cache in memory, whatever it holds and however it misbehaves. All keys are written
before the first is read, and reads change nothing; so what is read under a key depends on that key
alone, as it was at the start (`readBack`): its own name where the write was kept, what was there
before where it was lost, and in either case what the cache makes of a value that is read. The check
therefore reads on up to the least index whose key does not read back as itself, and names that key;
without such an index it passes (`run_bulk_pinpoints`).

A write that is lost is not noticed when the key had its own name before.
-/

set_option autoImplicit false

namespace CacheCheck

attribute [ext] Outcome

/-- Numbers up to the least that passes a test. -/
theorem upTo_range (test : Nat → Bool) (count : Nat) :
    ((∀ index < count, test index = false) ∧
        upTo test (List.range count) = List.range count) ∨
      ∃ index < count, (∀ earlier < index, test earlier = false) ∧ test index = true ∧
        upTo test (List.range count) = List.range (index + 1) := by
  by_cases hall : ∀ index < count, test index = false
  · exact .inl ⟨hall, upTo_eq_self_of_none fun index hmem ↦ hall index (List.mem_range.mp hmem)⟩
  · have hsome : ∃ index, index < count ∧ test index = true := by simpa using hall
    obtain ⟨index, ⟨hlt, htest⟩, hleast⟩ : ∃ index, (index < count ∧ test index = true) ∧
        ∀ earlier < index, ¬ (earlier < count ∧ test earlier = true) :=
      ⟨Nat.find hsome, Nat.find_spec hsome, fun _ ↦ Nat.find_min hsome⟩
    have hnone : ∀ earlier < index, test earlier = false := fun earlier hearlier ↦
      Bool.eq_false_iff.mpr fun hpass ↦ hleast earlier hearlier ⟨by omega, hpass⟩
    refine .inr ⟨index, hlt, hnone, htest, ?_⟩
    obtain ⟨more, rfl⟩ := Nat.exists_eq_add_of_lt hlt
    have hrange : List.range (index + more + 1) =
        List.range index ++ index :: (List.range more).map (fun k ↦ index + (k + 1)) := by
      rw [Nat.add_assoc, List.range_add, List.range_succ_eq_map]
      simp
    rw [hrange, upTo_append_cons _ (fun earlier hmem ↦ hnone earlier (List.mem_range.mp hmem))
      htest, List.range_succ]

namespace Check

theorem bulkKey_injective (stem : String) : Function.Injective (bulkKey stem) := by
  intro index index' heq
  have hrepr : (toString index).toList = (toString index').toList := by
    have hchars := congrArg String.toList heq
    simp only [bulkKey, String.toList_append] at hchars
    exact List.append_cancel_left hchars
  have hdigits (n : Nat) : (toString n).toList = Nat.toDigits 10 n := Nat.toList_repr
  rw [hdigits, hdigits] at hrepr
  exact Decimal.toDigits_injective hrepr

theorem nodup_bulkKeys (stem : String) (count : Nat) : (bulkKeys stem count).Nodup :=
  List.nodup_range.map (bulkKey_injective stem)

end Check

namespace Memory

open Check (bulk bulkKey bulkKeys)

/-- What is read under a key after it was given its own name. -/
def readBack (m : Memory) (key : String) : Option String :=
  match m.defect with
  | none => some key
  | some .dropWrites => m.entries.get? key
  | some (.dropStem stem) => if stem.toList <+: key.toList then m.entries.get? key else some key
  | some (.corruptReads suffix) => some (key ++ suffix)

variable (backend : Backend)

theorem found_after_writes {keys : List String} {key : String} (hkey : key ∈ keys) (m : Memory) :
    ((client backend).after (keys.map fun key ↦ .set key key) m).found key = m.readBack key := by
  rw [found, get?_after_writes, after_defect, readBack]
  have hkeeps : m.Keeps key ↔ Defect.drops m.defect key = false := (m.drops_eq_false_iff key).symm
  simp only [hkey, true_and, hkeeps]
  cases m.defect with
  | none => rfl
  | some defect =>
    cases defect with
    | dropWrites => exact Option.map_id_apply
    | corruptReads suffix => rfl
    | dropStem stem =>
      have hdrops : Defect.drops (some (.dropStem stem)) key = false ↔
          ¬ stem.toList <+: key.toList := by
        rw [Defect.drops, Bool.eq_false_iff, Ne, List.isPrefixOf_iff_prefix]
      by_cases h : stem.toList <+: key.toList
      · rw [if_neg fun hkept ↦ hdrops.mp hkept h]
        simp only [h, if_true]
        exact Option.map_id_apply
      · rw [if_pos (hdrops.mpr h)]
        simp only [h, if_false]
        rfl

/-! ### The conversation of a bulk check -/

/-- The writes of a bulk check, all of them accepted. -/
def bulkWrites (stem : String) (count : Nat) : List Exchange :=
  (bulkKeys stem count).map fun key ↦ ⟨.set key key, .stored (.ok ())⟩

/-- The read of one key, after all were written. -/
def bulkRead (m : Memory) (stem : String) (index : Nat) : Exchange :=
  ⟨.get (bulkKey stem index), .read (.ok (m.readBack (bulkKey stem index)))⟩

theorem exchanges_bulk (m : Memory) (stem : String) (count : Nat) :
    (client backend).exchanges (bulk stem count).plan m =
      bulkWrites stem count ++ (List.range count).map (m.bulkRead stem) := by
  rw [Check.plan, Client.exchanges_append, exchanges_writes, exchanges_reads, bulkWrites]
  refine congrArg _ ?_
  rw [List.map_congr_left fun key hkey ↦ by rw [found_after_writes backend hkey m], bulkKeys,
    List.map_map]
  rfl

theorem isBad_of_mem_bulkWrites {stem : String} {count : Nat} {exchange : Exchange}
    (h : exchange ∈ bulkWrites stem count) : (bulk stem count).isBad exchange = false := by
  obtain ⟨key, -, rfl⟩ := List.mem_map.mp h
  rfl

theorem objection?_bulkRead (m : Memory) (stem : String) (count index : Nat) :
    (bulk stem count).objection? (m.bulkRead stem index) =
      let key := bulkKey stem index
      if m.readBack key = some key then none else some (.mismatch key key (m.readBack key)) := rfl

theorem isBad_bulkRead_eq_false_iff (m : Memory) (stem : String) (count index : Nat) :
    (bulk stem count).isBad (m.bulkRead stem index) = false ↔
      m.readBack (bulkKey stem index) = some (bulkKey stem index) := by
  rw [Check.isBad_eq_false_iff, objection?_bulkRead]
  simp

theorem exchanges_run_bulk (m : Memory) (stem : String) (count : Nat) :
    ((bulk stem count).run (client backend) m).exchanges =
      bulkWrites stem count ++
        (upTo (fun index ↦ (bulk stem count).isBad (m.bulkRead stem index))
          (List.range count)).map (m.bulkRead stem) := by
  rw [(Check.run_traces (client backend) (bulk stem count) m).exchanges_eq, exchanges_bulk,
    upTo_append_of_none _ fun _ hmem ↦ isBad_of_mem_bulkWrites hmem, upTo_map]

/-! ### What a bulk check comes to -/

/-- What a conversation leaves that has all the writes and so many of the reads. -/
structure BulkReads (m : Memory) (stem : String) (count reads : Nat)
    (progress : Check.Progress Memory) : Prop where
  writes_eq : progress.outcome.writes = count
  reads_eq : progress.outcome.reads = reads
  get?_eq : ∀ key, progress.state.entries.get? key =
    if key ∈ bulkKeys stem count ∧ m.Keeps key then some key else m.entries.get? key
  calls_eq : progress.state.calls = m.calls ++
    (bulkKeys stem count).map (fun key ↦ "set " ++ key ++ " " ++ key) ++
      (List.range reads).map (fun index ↦ "get " ++ bulkKey stem index)

theorem bulkReads_of_exchanges {m : Memory} {stem : String} {count reads : Nat}
    (h : ((bulk stem count).run (client backend) m).exchanges =
      bulkWrites stem count ++ (List.range reads).map (m.bulkRead stem)) :
    BulkReads m stem count reads ((bulk stem count).run (client backend) m) := by
  have htraces := Check.run_traces (client backend) (bulk stem count) m
  have hwrites : (bulkWrites stem count).countP Exchange.isWrite = count ∧
      (bulkWrites stem count).countP Exchange.isRead = 0 := by
    simp [bulkWrites, bulkKeys, List.countP_map, Function.comp_def, Exchange.isWrite,
      Exchange.isRead]
  have hreads : ((List.range reads).map (m.bulkRead stem)).countP Exchange.isWrite = 0 ∧
      ((List.range reads).map (m.bulkRead stem)).countP Exchange.isRead = reads := by
    simp [bulkRead, List.countP_map, Function.comp_def, Exchange.isWrite, Exchange.isRead]
  have hcalls : ((bulk stem count).run (client backend) m).calls =
      ((bulkKeys stem count).map fun key ↦ .set key key) ++
        ((List.range reads).map (bulkKey stem)).map .get := by
    rw [Check.Progress.calls, h, List.map_append, bulkWrites, List.map_map, List.map_map,
      List.map_map]
    rfl
  refine ⟨?_, ?_, fun key ↦ ?_, ?_⟩
  · rw [htraces.writes_eq, h, List.countP_append, hwrites.1, hreads.1, Nat.zero_add, Nat.add_zero]
  · rw [htraces.reads_eq, h, List.countP_append, hwrites.2, hreads.2, Nat.zero_add, Nat.zero_add]
  · rw [htraces.state_eq, hcalls, Client.after_append, after_reads_entries, get?_after_writes]
  · rw [htraces.state_eq, hcalls, after_calls, List.map_append, List.append_assoc, List.map_map,
      List.map_map, List.map_map]
    rfl

/-- What a bulk check of a cache in memory comes to. -/
structure Pinpoints (m : Memory) (stem : String) (count : Nat) (progress : Check.Progress Memory) :
    Prop where
  distinct : (bulkKeys stem count).Nodup
  /-- Either every key reads back as itself and the check passes, or the least index whose key does
  not is where it ends. -/
  verdict_eq :
    ((∀ index < count, m.readBack (bulkKey stem index) = some (bulkKey stem index)) ∧
        progress.verdict = .ok () ∧ progress.outcome = ⟨count, count, none⟩ ∧
        BulkReads m stem count count progress) ∨
      ∃ index < count,
        (∀ earlier < index, m.readBack (bulkKey stem earlier) = some (bulkKey stem earlier)) ∧
        m.readBack (bulkKey stem index) ≠ some (bulkKey stem index) ∧
        progress.verdict = .error (.mismatch (bulkKey stem index) (bulkKey stem index)
          (m.readBack (bulkKey stem index))) ∧
        BulkReads m stem count (index + 1) progress
  defect_eq : progress.state.defect = m.defect
  /-- A cache that was empty and does as it is told is left with one entry for each key. -/
  size_eq : m.defect = none → m.entries.size = 0 → progress.state.entries.size = count

theorem size_of_get? {m : Memory} {stem : String} {count reads : Nat}
    {progress : Check.Progress Memory} (h : BulkReads m stem count reads progress)
    (hdefect : m.defect = none) (hempty : m.entries.size = 0) :
    progress.state.entries.size = count := by
  have hnone (key : String) : m.entries.get? key = none := by
    rw [Store.get?, List.length_eq_zero_iff.mp hempty]
    rfl
  have hkeeps (key : String) : m.Keeps key := by
    rw [Keeps, hdefect]
    trivial
  have hkeys : ∀ key, (progress.state.entries.get? key).isSome = true ↔
      key ∈ bulkKeys stem count := by
    intro key
    rw [h.get?_eq, hnone]
    by_cases hmem : key ∈ bulkKeys stem count <;> simp [hmem, hkeeps]
  rw [Store.size_eq_length (Check.nodup_bulkKeys stem count) hkeys, bulkKeys, List.length_map,
    List.length_range]

/-- A bulk check of a cache in memory, in any state and with any defect or none, writes every key,
reads up to the first that does not read back as itself, and names that key. -/
theorem run_bulk_pinpoints (m : Memory) (stem : String) (count : Nat) :
    Pinpoints m stem count ((bulk stem count).run (client backend) m) := by
  have htraces := Check.run_traces (client backend) (bulk stem count) m
  have hexchanges := exchanges_run_bulk backend m stem count
  have hdefect : ((bulk stem count).run (client backend) m).state.defect = m.defect := by
    rw [htraces.state_eq, after_defect]
  rcases upTo_range (fun index ↦ (bulk stem count).isBad (m.bulkRead stem index)) count with
    ⟨hgood, hupTo⟩ | ⟨index, hindex, hgood, hbad, hupTo⟩
  · rw [hupTo] at hexchanges
    have hreads := bulkReads_of_exchanges backend hexchanges
    have hok : ((bulk stem count).run (client backend) m).verdict = .ok () := by
      rw [htraces.verdict_eq, Check.verdictOf_eq_ok_iff, Option.bind_eq_none_iff, hexchanges]
      intro last hlast
      rw [← Check.isBad_eq_false_iff]
      rcases List.mem_append.mp (List.mem_of_getLast? hlast) with hwrite | hread
      · exact isBad_of_mem_bulkWrites hwrite
      · obtain ⟨index, hindex, rfl⟩ := List.mem_map.mp hread
        exact hgood index (List.mem_range.mp hindex)
    have houtcome : ((bulk stem count).run (client backend) m).outcome = ⟨count, count, none⟩ :=
      Outcome.ext hreads.writes_eq hreads.reads_eq
        (Check.observed_run_bulk (client backend) stem count m hok)
    exact
      { distinct := Check.nodup_bulkKeys stem count
        verdict_eq := .inl
          ⟨fun index hindex ↦ (isBad_bulkRead_eq_false_iff m stem count index).mp
            (hgood index hindex), hok, houtcome, hreads⟩
        defect_eq := hdefect
        size_eq := size_of_get? hreads }
  · rw [hupTo] at hexchanges
    have hreads := bulkReads_of_exchanges backend hexchanges
    have hdiffers : m.readBack (bulkKey stem index) ≠ some (bulkKey stem index) := by
      rw [Ne, ← isBad_bulkRead_eq_false_iff m stem count index, hbad]
      exact Bool.noConfusion
    have herror : ((bulk stem count).run (client backend) m).verdict = .error (.mismatch
        (bulkKey stem index) (bulkKey stem index) (m.readBack (bulkKey stem index))) := by
      rw [htraces.verdict_eq, Check.verdictOf_eq_error_iff, hexchanges, List.range_succ,
        List.map_append, ← List.append_assoc, List.map_singleton, List.getLast?_concat,
        Option.bind_some, objection?_bulkRead, if_neg hdiffers]
    exact
      { distinct := Check.nodup_bulkKeys stem count
        verdict_eq := .inr ⟨index, hindex, fun earlier hearlier ↦
          (isBad_bulkRead_eq_false_iff m stem count earlier).mp (hgood earlier hearlier),
          hdiffers, herror, hreads⟩
        defect_eq := hdefect
        size_eq := size_of_get? hreads }

end Memory

end CacheCheck
