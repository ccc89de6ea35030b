import CacheCheck.Proofs.Resp.Packing
import CacheCheck.Text.Quoted

/-!
Quotations can be told apart. A character is quoted as itself, by a letter behind a backslash, or by
its number in braces (`escape_cases`), and each of the three says where it ends, since a backslash
is never quoted as itself and no digit is a brace. No escape begins with a quote, so a quotation
ends at the first quote that is not part of an escape: what was quoted and what stands behind it are
both determined (`selfDelimiting_quote`), whatever was quoted.

Control characters are never shown as they are, nor does an escape hold one, so a quotation is free
of them (`not_isControl_of_mem_quote`).
-/

set_option autoImplicit false

namespace CacheCheck

/-- A control character: below the space, or from the delete character to 9F. -/
def IsControl (c : Char) : Prop :=
  c.toNat < 0x20 ∨ 0x7F ≤ c.toNat ∧ c.toNat ≤ 0x9F

instance : DecidablePred IsControl := fun c ↦
  inferInstanceAs (Decidable (c.toNat < 0x20 ∨ 0x7F ≤ c.toNat ∧ c.toNat ≤ 0x9F))

namespace Quoted

open Resp (SelfDelimiting append_cons_inj_of_not_mem)

/-! ### Hexadecimal digits -/

theorem exists_of_mem_toDigits {base n : Nat} (hbase : 1 < base) {c : Char}
    (h : c ∈ Nat.toDigits base n) : ∃ digit < base, c = Nat.digitChar digit := by
  induction n using Nat.strongRecOn with
  | ind n ih =>
    by_cases hlt : n < base
    · rw [Nat.toDigits_of_lt_base hlt, List.mem_singleton] at h
      exact ⟨n, hlt, h⟩
    · rw [Nat.toDigits_of_base_le hbase (by omega), List.mem_append, List.mem_singleton] at h
      rcases h with hfront | hlast
      · exact ih (n / base) (Nat.div_lt_self (by omega) hbase) hfront
      · exact ⟨n % base, Nat.mod_lt n (by omega), hlast⟩

theorem digitChar_inj {d e : Nat} (hd : d < 16) (he : e < 16)
    (h : Nat.digitChar d = Nat.digitChar e) : d = e := by
  have hall : ∀ d, d < 16 → ∀ e, e < 16 → Nat.digitChar d = Nat.digitChar e → d = e := by decide
  exact hall d hd e he h

theorem hex_of_le {n : Nat} (h : 16 ≤ n) : hex n = hex (n / 16) ++ [Nat.digitChar (n % 16)] :=
  Nat.toDigits_of_base_le (by omega) h

theorem hex_of_lt {n : Nat} (h : n < 16) : hex n = [Nat.digitChar n] :=
  Nat.toDigits_of_lt_base h

theorem hex_injective : Function.Injective hex := by
  intro n
  induction n using Nat.strongRecOn with
  | ind n ih =>
    intro m heq
    have hlast (k : Nat) : k % 16 < 16 := Nat.mod_lt k (by omega)
    have hnil (k : Nat) : hex k ≠ [] := Nat.toDigits_ne_nil
    by_cases hn : n < 16
    · by_cases hm : m < 16
      · rw [hex_of_lt hn, hex_of_lt hm] at heq
        exact digitChar_inj hn hm (List.head_eq_of_cons_eq heq)
      · rw [hex_of_lt hn, hex_of_le (Nat.not_lt.mp hm), eq_comm,
          List.append_eq_singleton_iff] at heq
        simp [hnil] at heq
    · by_cases hm : m < 16
      · rw [hex_of_le (Nat.not_lt.mp hn), hex_of_lt hm, List.append_eq_singleton_iff] at heq
        simp [hnil] at heq
      · rw [hex_of_le (Nat.not_lt.mp hn), hex_of_le (Nat.not_lt.mp hm)] at heq
        obtain ⟨hfront, hback⟩ := List.append_inj' heq rfl
        have hquotient : n / 16 = m / 16 := ih (n / 16) (by omega) hfront
        have hdigit : n % 16 = m % 16 :=
          digitChar_inj (hlast n) (hlast m) (List.head_eq_of_cons_eq hback)
        omega

theorem brace_not_mem_hex (n : Nat) : '\x7d' ∉ hex n := by
  intro hmem
  obtain ⟨digit, hdigit, hbrace⟩ := exists_of_mem_toDigits (by omega) hmem
  have hall : ∀ digit, digit < 16 → '\x7d' ≠ Nat.digitChar digit := by decide
  exact hall digit hdigit hbrace

/-! ### Escapes -/

/-- The characters that are quoted by a letter behind a backslash, with their letters. -/
def letters : List (Char × Char) :=
  [('\t', 't'), ('\r', 'r'), ('\n', 'n'), ('\x00', '0'), ('"', '"'), ('\\', '\\')]

/-- A character is quoted by its letter, as itself, or by its number. -/
theorem escape_cases (c : Char) :
    (∃ letter, (c, letter) ∈ letters ∧ escape c = ['\\', letter]) ∨
      (c ≠ '\\' ∧ c ≠ '"' ∧ Printable.isPrintable c = true ∧ escape c = [c]) ∨
      escape c = '\\' :: 'u' :: '\x7b' :: (hex c.toNat ++ ['\x7d']) := by
  unfold escape
  iterate 6
    split
    · next h => exact .inl ⟨_, by subst h; decide, rfl⟩
  split
  · next h => exact .inr (.inl ⟨‹_›, ‹_›, h, rfl⟩)
  · exact .inr (.inr rfl)

theorem letters_inj {c d letter : Char} (hc : (c, letter) ∈ letters) (hd : (d, letter) ∈ letters) :
    c = d := by
  have hall : ∀ first ∈ letters, ∀ second ∈ letters, first.2 = second.2 → first.1 = second.1 := by
    decide
  exact hall _ hc _ hd rfl

theorem not_mem_letters (c : Char) : (c, 'u') ∉ letters := by
  simp [letters]

/-- An escape says where it ends. -/
theorem selfDelimiting_escape : SelfDelimiting escape := by
  intro c d rest rest' heq
  obtain ⟨letter, hletter, hc⟩ | ⟨hslash, -, -, hc⟩ | hc := escape_cases c
  · obtain ⟨letter', hletter', hd⟩ | ⟨hslash', -, -, hd⟩ | hd := escape_cases d
    · rw [hc, hd] at heq
      obtain ⟨rfl, hrest⟩ := List.cons.inj (List.tail_eq_of_cons_eq heq)
      exact ⟨letters_inj hletter hletter', hrest⟩
    · rw [hc, hd] at heq
      exact absurd (List.head_eq_of_cons_eq heq).symm hslash'
    · rw [hc, hd] at heq
      obtain ⟨rfl, -⟩ := List.cons.inj (List.tail_eq_of_cons_eq heq)
      exact absurd hletter (not_mem_letters c)
  · obtain ⟨letter', -, hd⟩ | ⟨-, -, -, hd⟩ | hd := escape_cases d
    · rw [hc, hd] at heq
      exact absurd (List.head_eq_of_cons_eq heq) hslash
    · rw [hc, hd] at heq
      exact List.cons.inj heq
    · rw [hc, hd] at heq
      exact absurd (List.head_eq_of_cons_eq heq) hslash
  · obtain ⟨letter', hletter', hd⟩ | ⟨hslash', -, -, hd⟩ | hd := escape_cases d
    · rw [hc, hd] at heq
      obtain ⟨rfl, -⟩ := List.cons.inj (List.tail_eq_of_cons_eq heq)
      exact absurd hletter' (not_mem_letters d)
    · rw [hc, hd] at heq
      exact absurd (List.head_eq_of_cons_eq heq).symm hslash'
    · rw [hc, hd] at heq
      simp only [List.cons_append, List.append_assoc, List.nil_append, List.cons.injEq,
        true_and] at heq
      obtain ⟨hhex, hrest⟩ :=
        append_cons_inj_of_not_mem (brace_not_mem_hex _) (brace_not_mem_hex _) heq
      exact ⟨Char.toNat_inj.mp (hex_injective hhex), hrest⟩

/-- No escape begins with a quote. -/
theorem exists_escape_eq_cons (c : Char) :
    ∃ first more, escape c = first :: more ∧ first ≠ '"' := by
  have hslash : '\\' ≠ '"' := by decide
  obtain ⟨letter, -, hc⟩ | ⟨-, hquote, -, hc⟩ | hc := escape_cases c
  · exact ⟨_, _, hc, hslash⟩
  · exact ⟨_, _, hc, hquote⟩
  · exact ⟨_, _, hc, hslash⟩

/-! ### Quotations -/

/-- The escapes of a text, with a quote behind them, say where they end. -/
theorem selfDelimiting_closed :
    SelfDelimiting fun chars : List Char ↦ chars.flatMap escape ++ ['"'] := by
  intro chars
  induction chars with
  | nil =>
    intro chars' rest rest' heq
    cases chars' with
    | nil => exact ⟨rfl, List.tail_eq_of_cons_eq heq⟩
    | cons d chars' =>
      obtain ⟨first, more, hd, hquote⟩ := exists_escape_eq_cons d
      simp only [List.flatMap_cons, hd, List.cons_append] at heq
      exact absurd (List.head_eq_of_cons_eq heq).symm hquote
  | cons c chars ih =>
    intro chars' rest rest' heq
    cases chars' with
    | nil =>
      obtain ⟨first, more, hc, hquote⟩ := exists_escape_eq_cons c
      simp only [List.flatMap_cons, hc, List.cons_append] at heq
      exact absurd (List.head_eq_of_cons_eq heq) hquote
    | cons d chars' =>
      simp only [List.flatMap_cons, List.append_assoc] at heq
      obtain ⟨rfl, hmore⟩ := selfDelimiting_escape c d _ _ heq
      obtain ⟨rfl, hrest⟩ := ih chars' rest rest' (by simpa using hmore)
      exact ⟨rfl, hrest⟩

theorem toList_quote (s : String) :
    (quote s).toList = '"' :: (s.toList.flatMap escape ++ ['"']) := by
  rw [quote, String.toList_ofList, body]

/-- A quotation and what is behind it are both determined by the two together. -/
theorem selfDelimiting_quote : SelfDelimiting fun s ↦ (quote s).toList := by
  intro s t rest rest' heq
  simp only [toList_quote, List.cons_append] at heq
  obtain ⟨hchars, hrest⟩ := selfDelimiting_closed s.toList t.toList _ _
    (List.tail_eq_of_cons_eq heq)
  exact ⟨String.toList_inj.mp hchars, hrest⟩

/-! ### Control characters -/

theorem not_isControl_of_isPrintable {c : Char} (h : Printable.isPrintable c = true) :
    ¬ IsControl c := by
  unfold Printable.isPrintable at h
  split at h
  · have hspace : 0x20 ≤ c.toNat := of_decide_eq_true h
    rintro (hlow | ⟨hdelete, -⟩) <;> omega
  · next hascii =>
    rintro (hlow | ⟨-, hhigh⟩)
    · omega
    · -- The first range of characters that are not shown goes from the delete character to A0.
      have hblank : Printable.inRanges Printable.blankRanges c.toNat = true :=
        List.any_eq_true.mpr ⟨(0x7F, 0xA0), List.mem_cons_self, by simp; omega⟩
      rw [hblank] at h
      cases h

/-- That there is no control character is found by looking at each. -/
theorem not_isControl_of_any {chars : List Char}
    (h : chars.any (fun c ↦ decide (IsControl c)) = false) : ∀ c ∈ chars, ¬ IsControl c := by
  simpa using h

theorem not_isControl_of_mem_escape {c d : Char} (h : d ∈ escape c) : ¬ IsControl d := by
  obtain ⟨letter, hletter, hc⟩ | ⟨-, -, hprintable, hc⟩ | hc := escape_cases c
  · have hletters : ∀ e ∈ '\\' :: letters.map Prod.snd, ¬ IsControl e :=
      not_isControl_of_any (by decide)
    rw [hc, List.mem_cons, List.mem_singleton] at h
    rcases h with rfl | rfl
    · exact hletters _ List.mem_cons_self
    · exact hletters _ (List.mem_cons_of_mem _ (List.mem_map_of_mem hletter))
  · rw [hc, List.mem_singleton] at h
    exact h ▸ not_isControl_of_isPrintable hprintable
  · have hmarks : ∀ e ∈ ['\\', 'u', '\x7b', '\x7d'], ¬ IsControl e :=
      not_isControl_of_any (by decide)
    have hdigits : ∀ digit, digit < 16 → ¬ IsControl (Nat.digitChar digit) := by decide
    rw [hc] at h
    simp only [List.mem_cons, List.mem_append, List.not_mem_nil, or_false] at h hmarks
    rcases h with hslash | hu | hopen | hhex | hclose
    · exact hmarks d (.inl hslash)
    · exact hmarks d (.inr (.inl hu))
    · exact hmarks d (.inr (.inr (.inl hopen)))
    · obtain ⟨digit, hdigit, rfl⟩ := exists_of_mem_toDigits (by omega) hhex
      exact hdigits digit hdigit
    · exact hmarks d (.inr (.inr (.inr hclose)))

theorem not_isControl_of_mem_quote {s : String} {c : Char} (h : c ∈ (quote s).toList) :
    ¬ IsControl c := by
  have hquote : ¬ IsControl '"' := by decide
  rw [toList_quote, List.mem_cons, List.mem_append, List.mem_singleton] at h
  rcases h with rfl | hbody | rfl
  · exact hquote
  · obtain ⟨d, -, hescape⟩ := List.mem_flatMap.mp hbody
    exact not_isControl_of_mem_escape hescape
  · exact hquote

end Quoted

end CacheCheck
