import CacheCheck.Text.Tokens

/-!
Reading undoes writing for whole numbers. A number that is within a bound is read back from its
decimal digits, and those digits are never none and never begin with a sign.

What is read without a sign of its own are numerals, and nothing else: one digit or more, with a
plus before them or not (`unsigned_eq_ok_iff`).
-/

set_option autoImplicit false

namespace CacheCheck.Decimal

theorem le_ofDigitChars (chars : List Char) (value : Nat) :
    value ≤ Nat.ofDigitChars 10 chars value := by
  induction chars generalizing value with
  | nil => simp
  | cons c rest ih =>
    rw [Nat.ofDigitChars_cons]
    exact Nat.le_trans (by omega) (ih _)

/-- Digits that make a number within the bound are read as that number, since no part of them makes
a greater one. -/
theorem digits_eq_ok {limit value : Nat} {chars : List Char}
    (hdigits : ∀ c ∈ chars, c.isDigit = true)
    (hlimit : Nat.ofDigitChars 10 chars value ≤ limit) :
    digits limit value chars = .ok (Nat.ofDigitChars 10 chars value) := by
  induction chars generalizing value with
  | nil => simp [digits]
  | cons c rest ih =>
    rw [Nat.ofDigitChars_cons] at hlimit
    have hstep : value * 10 + (c.toNat - '0'.toNat) = 10 * value + (c.toNat - '0'.toNat) := by
      rw [Nat.mul_comm]
    have hle := Nat.le_trans (le_ofDigitChars rest _) hlimit
    rw [digits, if_pos (hdigits c List.mem_cons_self)]
    simp only [hstep]
    rw [if_pos hle, ih (fun d hd ↦ hdigits d (List.mem_cons_of_mem c hd)) hlimit,
      Nat.ofDigitChars_cons]

theorem unsigned_of_digit {limit : Nat} {c : Char} {rest : List Char} (hc : c.isDigit = true) :
    unsigned limit (c :: rest) = digits limit 0 (c :: rest) := by
  have hplus : c ≠ '+' := by
    rintro rfl
    cases hc
  unfold unsigned
  split
  · next h => cases h
  · next h => exact absurd (List.cons.inj h).1 hplus
  · next h => exact absurd (List.cons.inj h).1 hplus
  · rfl

/-- A number is known by its digits. -/
theorem toDigits_injective : Function.Injective (Nat.toDigits 10) := by
  intro n m heq
  calc
    n = Nat.ofDigitChars 10 (Nat.toDigits 10 n) 0 := Nat.ofDigitChars_ten_toDigits.symm
    _ = Nat.ofDigitChars 10 (Nat.toDigits 10 m) 0 := by rw [heq]
    _ = m := Nat.ofDigitChars_ten_toDigits

theorem unsigned_toString {limit n : Nat} (h : n ≤ limit) :
    unsigned limit (toString n).toList = .ok n := by
  have hchars : (toString n).toList = Nat.toDigits 10 n := Nat.toList_repr
  have hdigits : ∀ c ∈ Nat.toDigits 10 n, c.isDigit = true := fun c hc ↦
    Nat.isDigit_of_mem_toDigits (by omega) (by omega) hc
  have hvalue : Nat.ofDigitChars 10 (Nat.toDigits 10 n) 0 = n := Nat.ofDigitChars_ten_toDigits
  have hread : digits limit 0 (Nat.toDigits 10 n) = .ok n := by
    rw [digits_eq_ok hdigits (by rwa [hvalue]), hvalue]
  rw [hchars]
  cases hcons : Nat.toDigits 10 n with
  | nil => exact absurd hcons Nat.toDigits_ne_nil
  | cons c rest =>
    rw [unsigned_of_digit (hdigits c (hcons ▸ List.mem_cons_self)), ← hcons, hread]

/-! ### Numerals -/

/-- A text that stands for a number. -/
inductive Numeral : List Char → Nat → Prop
  | digits {chars : List Char} (nonempty : chars ≠ []) (all : ∀ c ∈ chars, c.isDigit = true) :
      Numeral chars (Nat.ofDigitChars 10 chars 0)
  | plus {chars : List Char} (nonempty : chars ≠ []) (all : ∀ c ∈ chars, c.isDigit = true) :
      Numeral ('+' :: chars) (Nat.ofDigitChars 10 chars 0)

/-- What is read as a number is digits that make it, within the bound. -/
theorem of_digits_eq_ok {limit value n : Nat} {chars : List Char} (hvalue : value ≤ limit)
    (h : digits limit value chars = .ok n) :
    (∀ c ∈ chars, c.isDigit = true) ∧ n = Nat.ofDigitChars 10 chars value ∧ n ≤ limit := by
  induction chars generalizing value with
  | nil =>
    cases h
    exact ⟨fun _ hc ↦ (List.not_mem_nil hc).elim, by simp, hvalue⟩
  | cons c rest ih =>
    rw [digits] at h
    split at h
    · next hc =>
      dsimp only at h
      split at h
      · next hstep =>
        obtain ⟨hall, hn, hle⟩ := ih hstep h
        refine ⟨List.forall_mem_cons.mpr ⟨hc, hall⟩, ?_, hle⟩
        rw [hn, Nat.ofDigitChars_cons, Nat.mul_comm]
      · cases h
    · cases h

theorem unsigned_plus {limit : Nat} {chars : List Char} (h : chars ≠ []) :
    unsigned limit ('+' :: chars) = digits limit 0 chars := by
  cases chars with
  | nil => exact absurd rfl h
  | cons c rest => rfl

/-- A number is read from the numerals for it, and from nothing else. -/
theorem unsigned_eq_ok_iff {limit n : Nat} {chars : List Char} :
    unsigned limit chars = .ok n ↔ Numeral chars n ∧ n ≤ limit := by
  constructor
  · intro h
    unfold unsigned at h
    split at h
    · cases h
    · cases h
    · next rest hsome =>
      obtain ⟨hall, rfl, hle⟩ := of_digits_eq_ok (Nat.zero_le limit) h
      exact ⟨.plus hsome hall, hle⟩
    · next hsome _ _ =>
      obtain ⟨hall, rfl, hle⟩ := of_digits_eq_ok (Nat.zero_le limit) h
      exact ⟨.digits hsome hall, hle⟩
  · rintro ⟨hnumeral, hle⟩
    cases hnumeral with
    | digits nonempty all =>
      cases chars with
      | nil => exact absurd rfl nonempty
      | cons c rest => rw [unsigned_of_digit (all c List.mem_cons_self), digits_eq_ok all hle]
    | plus nonempty all => rw [unsigned_plus nonempty, digits_eq_ok all hle]

end CacheCheck.Decimal
