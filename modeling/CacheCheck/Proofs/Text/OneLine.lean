import CacheCheck.Number.Binary64
import CacheCheck.Proofs.Text.Quoted

/-!
Texts of one line. Where texts are ended and put one behind the other, each contributes its own
lines and no others (`linesOf_ended`), so it is read back as one line exactly when it has no line
end in it. Quotations have none, whatever is quoted, and numbers have none.
-/

set_option autoImplicit false

namespace CacheCheck

/-- A text without a line end. -/
def OneLine (s : String) : Prop :=
  '\n' ∉ s.toList

instance : DecidablePred OneLine := fun s ↦ inferInstanceAs (Decidable ('\n' ∉ s.toList))

/-- The pieces of a text between its line ends, those that are empty too. -/
def linesOf (s : String) : List String :=
  (s.toList.splitOn '\n').map String.ofList

@[simp] theorem oneLine_append (s t : String) : OneLine (s ++ t) ↔ OneLine s ∧ OneLine t := by
  simp [OneLine]

/-! ### Lines of a text -/

theorem length_linesOf_pos (s : String) : 0 < (linesOf s).length := by
  rw [linesOf, List.length_map]
  exact List.length_pos_iff.mpr (List.splitOn_ne_nil _ _)

theorem linesOf_of_oneLine {s : String} (h : OneLine s) : linesOf s = [s] := by
  rw [linesOf, List.splitOn_eq_singleton h, List.map_singleton, String.ofList_toList]

theorem oneLine_of_length_linesOf {s : String} (h : (linesOf s).length = 1) : OneLine s := by
  intro hmem
  obtain ⟨front, back, hchars⟩ := List.append_of_mem hmem
  have hfront := List.length_pos_iff.mpr (List.splitOn_ne_nil '\n' front)
  have hback := List.length_pos_iff.mpr (List.splitOn_ne_nil '\n' back)
  rw [linesOf, List.length_map, hchars, List.splitOn_append_cons_self, List.length_append] at h
  omega

/-- The lines of texts that were ended and put one behind the other. -/
theorem linesOf_ended (texts : List String) :
    linesOf (String.join (texts.map (· ++ "\n"))) = texts.flatMap linesOf ++ [""] := by
  rw [linesOf, String.toList_join]
  induction texts with
  | nil => rfl
  | cons s texts ih =>
    have hchars : ((s :: texts).map (· ++ "\n")).flatMap String.toList =
        s.toList ++ '\n' :: (texts.map (· ++ "\n")).flatMap String.toList := by
      simp
    rw [hchars, List.splitOn_append_cons_self, List.map_append, ih, List.flatMap_cons,
      List.append_assoc]
    rfl

/-- Texts are counted by the lines that they make only if each is of one line. -/
theorem oneLine_of_length_flatMap {texts : List String}
    (h : (texts.flatMap linesOf).length = texts.length) : ∀ s ∈ texts, OneLine s := by
  have hle (texts : List String) : texts.length ≤ (texts.flatMap linesOf).length := by
    induction texts with
    | nil => simp
    | cons s texts ih =>
      have hpos := length_linesOf_pos s
      rw [List.flatMap_cons, List.length_append, List.length_cons]
      omega
  induction texts with
  | nil => simp
  | cons s texts ih =>
    have hpos := length_linesOf_pos s
    have hrest := hle texts
    rw [List.flatMap_cons, List.length_append, List.length_cons] at h
    exact List.forall_mem_cons.mpr ⟨oneLine_of_length_linesOf (by omega), ih (by omega)⟩

theorem flatMap_linesOf {texts : List String} (h : ∀ s ∈ texts, OneLine s) :
    texts.flatMap linesOf = texts := by
  induction texts with
  | nil => rfl
  | cons s texts ih =>
    obtain ⟨hs, htexts⟩ := List.forall_mem_cons.mp h
    rw [List.flatMap_cons, linesOf_of_oneLine hs, ih htexts, List.singleton_append]

/-! ### Numbers and quotations -/

theorem digitChar_ne_newline (n : Nat) : Nat.digitChar n ≠ '\n' := by
  grind [Nat.digitChar]

theorem newline_not_mem_toDigits {base : Nat} (hbase : 1 < base) (n : Nat) :
    '\n' ∉ Nat.toDigits base n := by
  intro hmem
  obtain ⟨digit, -, hdigit⟩ := Quoted.exists_of_mem_toDigits hbase hmem
  exact digitChar_ne_newline digit hdigit.symm

@[simp] theorem oneLine_repr (n : Nat) : OneLine n.repr := by
  rw [OneLine, Nat.toList_repr]
  exact newline_not_mem_toDigits (by omega) n

theorem oneLine_toFixed (x : Binary64) : OneLine x.toFixed := by
  cases x with
  | nan => decide
  | infinite negative => cases negative <;> decide
  | finite negative significand exponent =>
    have hdigit (n : Nat) : '\n' ≠ Nat.digitChar n := (digitChar_ne_newline n).symm
    have hplaces : '\n' ∉ Fixed.twoPlaces significand exponent := by
      simp [Fixed.twoPlaces, newline_not_mem_toDigits, hdigit]
    cases negative <;> simp [OneLine, Binary64.toFixed, Binary64.sign, hplaces]

/-- A quotation is of one line, whatever is quoted. -/
@[simp] theorem oneLine_quote (s : String) : OneLine (quote s) := fun hmem ↦
  Quoted.not_isControl_of_mem_quote hmem (by decide)

end CacheCheck
