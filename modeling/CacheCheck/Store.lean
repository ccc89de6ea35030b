/-!
Finite maps with text keys. The entries are a list with distinct keys; storing under a key moves
it to the front.
-/

set_option autoImplicit false

namespace CacheCheck

/-- A finite map from texts to values. -/
structure Store (α : Type) where
  entries : List (String × α)
  distinct : (entries.map Prod.fst).Nodup

namespace Store

variable {α : Type}

def empty : Store α := ⟨[], List.nodup_nil⟩

instance : Inhabited (Store α) := ⟨empty⟩

/-- The value under a key. -/
def get? (s : Store α) (key : String) : Option α :=
  (s.entries.find? (·.1 = key)).map Prod.snd

def size (s : Store α) : Nat :=
  s.entries.length

def isEmpty (s : Store α) : Bool :=
  s.entries.isEmpty

theorem distinct_filter (s : Store α) (p : String × α → Bool) :
    ((s.entries.filter p).map Prod.fst).Nodup :=
  List.Nodup.sublist (List.Sublist.map _ List.filter_sublist) s.distinct

def erase (s : Store α) (key : String) : Store α :=
  ⟨s.entries.filter (·.1 ≠ key), s.distinct_filter _⟩

def insert (s : Store α) (key : String) (value : α) : Store α where
  entries := (key, value) :: (s.erase key).entries
  distinct := by
    rw [List.map_cons, List.nodup_cons]
    refine ⟨?_, (s.erase key).distinct⟩
    simp [erase]

/-- Stores every pair of a list, in order. -/
def insertAll (s : Store α) (pairs : List (String × α)) : Store α :=
  pairs.foldl (fun s pair ↦ s.insert pair.1 pair.2) s

theorem get?_empty (key : String) : (empty : Store α).get? key = none := rfl

theorem find?_filter_ne {key other : String} (h : other ≠ key) (entries : List (String × α)) :
    (entries.filter (·.1 ≠ key)).find? (·.1 = other) = entries.find? (·.1 = other) := by
  rw [List.find?_filter]
  congr 1
  funext entry
  by_cases hentry : entry.1 = other <;> simp [hentry, h]

@[simp] theorem get?_erase (s : Store α) (key other : String) :
    (s.erase key).get? other = if other = key then none else s.get? other := by
  split
  · next h =>
    subst h
    simp [get?, erase, List.find?_eq_none]
  · next h => simp only [get?, erase, find?_filter_ne h]

@[simp] theorem get?_insert (s : Store α) (key other : String) (value : α) :
    (s.insert key value).get? other = if other = key then some value else s.get? other := by
  by_cases h : other = key
  · subst h
    simp [get?, insert]
  · have hne : key ≠ other := fun heq ↦ h heq.symm
    have herase := get?_erase s key other
    simp only [h, if_false] at herase ⊢
    rw [← herase]
    simp [get?, insert, hne]

end Store

end CacheCheck
