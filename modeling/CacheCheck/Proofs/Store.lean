import CacheCheck.Store
import Mathlib.Data.List.Dedup
import Mathlib.Data.List.Induction

/-!
The size of a map is the number of its keys. Entries are kept with distinct keys, so a list without
repetitions that names the keys of a map is as long as the map is large.

When pairs are stored one after the other, the last pair with a key is the one that counts
(`get?_insertAll`).
-/

set_option autoImplicit false

namespace CacheCheck.Store

variable {α β : Type}

theorem get?_isSome_iff (s : Store α) (key : String) :
    (s.get? key).isSome = true ↔ key ∈ s.entries.map Prod.fst := by
  rw [get?, Option.isSome_map, List.find?_isSome, List.mem_map]
  simp

theorem size_eq_length {s : Store α} {keys : List String} (hkeys : keys.Nodup)
    (h : ∀ key, (s.get? key).isSome = true ↔ key ∈ keys) : s.size = keys.length := by
  have hperm : List.Perm (s.entries.map Prod.fst) keys := by
    rw [List.perm_ext_iff_of_nodup s.distinct hkeys]
    intro key
    rw [← s.get?_isSome_iff, h key]
  have hlength := hperm.length_eq
  rwa [List.length_map] at hlength

/-- Maps that have the same keys have the same size. -/
theorem size_eq_of_isSome {s : Store α} {t : Store β}
    (h : ∀ key, (s.get? key).isSome = (t.get? key).isSome) : s.size = t.size := by
  have hlength : s.size = (t.entries.map Prod.fst).length :=
    size_eq_length t.distinct fun key ↦ by rw [h key, t.get?_isSome_iff]
  rwa [List.length_map] at hlength

/-! ### Pairs stored in order -/

theorem insertAll_append (s : Store α) (first second : List (String × α)) :
    s.insertAll (first ++ second) = (s.insertAll first).insertAll second :=
  List.foldl_append

/-- The value of the last pair with a key. -/
def lastUnder (key : String) (pairs : List (String × α)) : Option α :=
  (pairs.filter (·.1 = key)).getLast?.map Prod.snd

theorem lastUnder_concat (key : String) (pairs : List (String × α)) (pair : String × α) :
    lastUnder key (pairs ++ [pair]) =
      if key = pair.1 then some pair.2 else lastUnder key pairs := by
  by_cases h : key = pair.1
  · simp [lastUnder, h]
  · simp [lastUnder, h, Ne.symm h]

theorem isSome_lastUnder_iff (key : String) (pairs : List (String × α)) :
    (lastUnder key pairs).isSome = true ↔ key ∈ pairs.map Prod.fst := by
  simp [lastUnder]

theorem mem_of_lastUnder {key : String} {pairs : List (String × α)} {value : α}
    (h : lastUnder key pairs = some value) : (key, value) ∈ pairs := by
  obtain ⟨⟨other, found⟩, hlast, rfl⟩ := Option.map_eq_some_iff.mp h
  obtain ⟨hmem, hkey⟩ := List.mem_filter.mp (List.mem_of_getLast? hlast)
  obtain rfl : other = key := by simpa using hkey
  exact hmem

theorem get?_insertAll (s : Store α) (pairs : List (String × α)) (key : String) :
    (s.insertAll pairs).get? key = (lastUnder key pairs).or (s.get? key) := by
  induction pairs using List.reverseRecOn with
  | nil => rfl
  | append_singleton pairs pair ih =>
    have hlast : s.insertAll (pairs ++ [pair]) = (s.insertAll pairs).insert pair.1 pair.2 :=
      s.insertAll_append pairs [pair]
    rw [hlast, get?_insert, ih, lastUnder_concat]
    split <;> rfl

/-- A map has as many entries as there are different keys among the pairs that made it. -/
theorem size_insertAll (pairs : List (String × α)) :
    (empty.insertAll pairs).size = (pairs.map Prod.fst).dedup.length := by
  refine size_eq_length (List.nodup_dedup _) fun key ↦ ?_
  rw [get?_insertAll, get?_empty, Option.or_none, isSome_lastUnder_iff, List.mem_dedup]

end CacheCheck.Store
