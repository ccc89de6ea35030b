import CacheCheck.Proofs.Json.RoundTrip

/-!
What is written for a number is a number of the language. The decimal that is chosen for a
floating-point number other than zero is not zero, since it lies in an interval of positive reals;
so its digits do not begin with a zero, whichever way they are laid out.
-/

set_option autoImplicit false

namespace CacheCheck

namespace Json

/-! ### Parts of a number -/

theorem isDigits_append {front back : List Char} (hfront : isDigits front = true)
    (hback : back.all Char.isDigit = true) : isDigits (front ++ back) = true := by
  cases front with
  | nil => cases hfront
  | cons c front => simpa [isDigits, List.all_append, hback] using hfront

theorem isWhole_of_head {chars : List Char} (h : isDigits chars = true)
    (hhead : chars.head? ≠ some '0') : isWhole chars = true := by
  simp [isWhole, h, hhead]

/-- A whole part and what may stand behind it make a magnitude. -/
theorem isMagnitude_append {whole behind : List Char} (hwhole : isWhole whole = true)
    (hbehind : isFraction behind = true) (hhead : ∀ c ∈ behind.head?, c.isDigit = false) :
    isMagnitude (whole ++ behind) = true := by
  have hdigits : isDigits whole = true := by
    rw [isWhole, Bool.and_eq_true] at hwhole
    exact hwhole.1
  obtain ⟨htake, hdrop⟩ := takeWhile_append_of_head (isDigit_of_isDigits hdigits) hhead
  rw [isMagnitude, htake, hdrop, hwhole, hbehind]
  rfl

theorem isFraction_point {digits behind : List Char} (h : isDigits digits = true)
    (hbehind : isExponent behind = true) (hhead : ∀ c ∈ behind.head?, c.isDigit = false) :
    isFraction ('.' :: (digits ++ behind)) = true := by
  obtain ⟨htake, hdrop⟩ := takeWhile_append_of_head (isDigit_of_isDigits h) hhead
  rw [isFraction, htake, hdrop, h, hbehind]
  rfl

theorem withoutSign_of_isDigits {digits : List Char} (h : isDigits digits = true) :
    withoutSign digits = digits := by
  unfold withoutSign
  split
  · cases h
  · cases h
  · rfl

/-- An exponent, with a sign or without. -/
theorem isExponent_append {mark digits : List Char} (hmark : mark ∈ [[], ['+'], ['-']])
    (h : isDigits digits = true) : isExponent ('e' :: (mark ++ digits)) = true := by
  have hsign : withoutSign (mark ++ digits) = digits := by
    rcases (by simpa using hmark : mark = [] ∨ mark = ['+'] ∨ mark = ['-']) with rfl | rfl | rfl
    · exact withoutSign_of_isDigits h
    · rfl
    · rfl
  rw [isExponent, hsign, h]
  rfl

theorem isNumber_of_isMagnitude {chars : List Char} (h : isMagnitude chars = true) :
    isNumber chars = true ∧ isNumber ('-' :: chars) = true := by
  refine ⟨?_, h⟩
  unfold isNumber
  split
  · cases h
  · exact h

end Json

/-! ### Digits -/

theorem isDigits_toDigits (n : Nat) : Json.isDigits (Nat.toDigits 10 n) = true := by
  have hdigits : ∀ c ∈ Nat.toDigits 10 n, c.isDigit = true := fun c hc ↦
    Nat.isDigit_of_mem_toDigits (by omega) (by omega) hc
  simpa [Json.isDigits, Nat.toDigits_ne_nil] using hdigits

/-- Zero apart, no number begins with a zero. -/
theorem head?_toDigits_ne {n : Nat} (h : n ≠ 0) : (Nat.toDigits 10 n).head? ≠ some '0' := by
  induction n using Nat.strongRecOn with
  | ind n ih =>
    by_cases hlt : n < 10
    · have hall : ∀ n, n < 10 → n ≠ 0 → Nat.digitChar n ≠ '0' := by decide
      rw [Nat.toDigits_of_lt_base hlt, List.head?_cons, ne_eq, Option.some.injEq]
      exact hall n hlt h
    · rw [Nat.toDigits_of_base_le (by omega) (by omega),
        List.head?_append]
      have hfront := ih (n / 10) (by omega) (by omega)
      obtain ⟨c, more, hdigits⟩ : ∃ c more, Nat.toDigits 10 (n / 10) = c :: more :=
        List.exists_cons_of_ne_nil Nat.toDigits_ne_nil
      rw [hdigits] at hfront ⊢
      exact hfront

theorem isWhole_toDigits (n : Nat) : Json.isWhole (Nat.toDigits 10 n) = true := by
  by_cases h : n = 0
  · subst h
    rfl
  · exact Json.isWhole_of_head (isDigits_toDigits n) (head?_toDigits_ne h)

/-- A whole number is written as one. -/
theorem Json.written_ofNat (n : Nat) : (Json.ofNat n).Written := by
  refine .number ?_
  have hchars : (toString n).toList = Nat.toDigits 10 n ++ [] := by
    rw [List.append_nil]
    exact Nat.toList_repr
  rw [hchars]
  exact (isNumber_of_isMagnitude (isMagnitude_append (isWhole_toDigits n) rfl (by simp))).1

/-! ### Floating-point numbers -/

namespace Shortest

/-- The reals that round to a number other than zero are positive, so no decimal among them is
zero. -/
theorem coefficient_ne_zero {significand : Nat} {exponent : Int} {d : Decimal}
    (h : significand ≠ 0) (hcontains : (interval significand exponent).contains d = true) :
    d.coefficient ≠ 0 := by
  intro hzero
  have hscale : 0 < Nat.pow 2 (exponent - 2).toNat := Nat.pow_pos (by omega)
  have hlow : 0 < (interval significand exponent).low := by
    refine Nat.mul_pos ?_ hscale
    split <;> omega
  have hunit : 0 < Nat.pow 10 (-d.exponent).toNat := Nat.pow_pos (by omega)
  have hpos := Nat.mul_pos hlow hunit
  simp only [Interval.contains, hzero, Nat.zero_mul] at hcontains
  split at hcontains
  · rw [Bool.and_eq_true, decide_eq_true_eq] at hcontains
    omega
  · rw [Bool.and_eq_true, decide_eq_true_eq] at hcontains
    omega

theorem contains_of_onGrid? {tie : Tie} {i : Interval} {exponent : Int} {d : Decimal}
    (h : onGrid? tie i exponent = some d) : i.contains d = true := by
  unfold onGrid? at h
  simp only at h
  split at h
  · next hdown hup =>
    repeat' split at h
    all_goals
      cases h
      assumption
  · next hdown _ =>
    cases h
    exact hdown
  · next _ hup =>
    cases h
    exact hup
  · cases h

/-- The decimal chosen for a number other than zero is not zero, if one is found. -/
theorem coefficient_decimal (tie : Tie) {significand : Nat} (exponent : Int) (h : significand ≠ 0) :
    decimal tie significand exponent = ⟨0, 0⟩ ∨
      (decimal tie significand exponent).coefficient ≠ 0 := by
  rw [decimal]
  cases hfound : (List.range 20).findSome? fun k : Nat ↦
      onGrid? tie (interval significand exponent) (ceilingExponent significand exponent - k) with
  | none => exact Or.inl rfl
  | some d =>
    obtain ⟨k, -, hk⟩ := List.exists_of_findSome?_eq_some hfound
    exact Or.inr (coefficient_ne_zero h (contains_of_onGrid? hk))

theorem isFraction_digits {digits : List Char} (h : Json.isDigits digits = true) :
    Json.isFraction ('.' :: digits) = true := by
  have hpoint := Json.isFraction_point h (rfl : Json.isExponent [] = true) (by simp)
  rwa [List.append_nil] at hpoint

/-- Digits that do not begin with a zero make a magnitude wherever the point stands. -/
theorem isMagnitude_withPoint {digits : List Char} (point : Int) (h : Json.isDigits digits = true)
    (hhead : digits.head? ≠ some '0') : Json.isMagnitude (withPoint true digits point) = true := by
  obtain ⟨first, more, rfl⟩ : ∃ first more, digits = first :: more :=
    List.exists_cons_of_ne_nil (by rintro rfl; cases h)
  have hall := Json.isDigit_of_isDigits h
  by_cases hpoint : point ≤ 0
  · have hdigits : Json.isDigits (List.replicate (-point).toNat '0' ++ first :: more) = true := by
      simpa [Json.isDigits] using hall
    have hshape : withPoint true (first :: more) point =
        ['0'] ++ '.' :: (List.replicate (-point).toNat '0' ++ first :: more) := by
      simp [withPoint, hpoint]
    rw [hshape]
    exact Json.isMagnitude_append rfl (isFraction_digits hdigits) (by simp)
  · obtain ⟨before, hbefore⟩ : ∃ before, point.toNat = before + 1 :=
      Nat.exists_eq_succ_of_ne_zero (by omega)
    have hfront : Json.isDigits (first :: more.take before) = true := by
      have hmore : ∀ c ∈ more.take before, c.isDigit = true := fun c hc ↦
        hall c (List.mem_cons_of_mem first (List.mem_of_mem_take hc))
      simpa [Json.isDigits, hall first List.mem_cons_self] using hmore
    have hwhole : Json.isWhole (first :: (more.take before ++
        List.replicate (before - more.length) '0')) = true :=
      Json.isWhole_of_head (Json.isDigits_append hfront (by simp)) (by simpa using hhead)
    have hshape : withPoint true (first :: more) point =
        first :: (more.take before ++ List.replicate (before - more.length) '0') ++
          '.' :: (if (more.drop before).isEmpty then ['0'] else more.drop before) := by
      simp only [withPoint, if_neg hpoint, hbefore, List.take_succ_cons, List.drop_succ_cons,
        List.length_cons, Nat.add_sub_add_right]
      split <;> simp
    have hpart : Json.isDigits
        (if (more.drop before).isEmpty then ['0'] else more.drop before) = true := by
      split
      · rfl
      · next hrest =>
        have hmore : ∀ c ∈ more.drop before, c.isDigit = true := fun c hc ↦
          hall c (List.mem_cons_of_mem first (List.mem_of_mem_drop hc))
        rw [Json.isDigits, Bool.and_eq_true, List.all_eq_true]
        exact ⟨by simpa using hrest, hmore⟩
    rw [hshape]
    exact Json.isMagnitude_append hwhole (isFraction_digits hpart) (by simp)

/-- So they do in front of an exponent, with a point behind the first of them or none. -/
theorem isMagnitude_withExponent {digits : List Char} (power : Int)
    (h : Json.isDigits digits = true) (hhead : digits.head? ≠ some '0') :
    Json.isMagnitude (withExponent true digits power) = true := by
  have hmark : (if power < 0 then ['-'] else ['+']) ∈ [[], ['+'], ['-']] := by
    split <;> simp
  have hexponent := Json.isExponent_append hmark (isDigits_toDigits power.natAbs)
  have hall := Json.isDigit_of_isDigits h
  match digits with
  | [] => cases h
  | [first] =>
    have hmagnitude := Json.isMagnitude_append (Json.isWhole_of_head h hhead)
      (show Json.isFraction ('e' :: _) = true from hexponent) (by simp)
    simpa [withExponent] using hmagnitude
  | first :: second :: rest =>
    have hfirst : Json.isWhole [first] = true :=
      Json.isWhole_of_head (by simpa [Json.isDigits] using hall first List.mem_cons_self) hhead
    have hrest : Json.isDigits (second :: rest) = true := by
      simpa [Json.isDigits] using (List.forall_mem_cons.mp hall).2
    have hmagnitude := Json.isMagnitude_append hfirst
      (Json.isFraction_point hrest hexponent (by simp)) (by simp)
    simpa [withExponent] using hmagnitude

theorem isMagnitude_text (significand : Nat) (exponent : Int) :
    Json.isMagnitude (text Json.numberLayout significand exponent).toList = true := by
  have hchosen : (if significand = 0 then ⟨0, 0⟩
        else decimal Json.numberLayout.tie significand exponent) = ⟨0, 0⟩ ∨
      (if significand = 0 then ⟨0, 0⟩
        else decimal Json.numberLayout.tie significand exponent).coefficient ≠ 0 := by
    by_cases hzero : significand = 0
    · exact Or.inl (if_pos hzero)
    · rw [if_neg hzero]
      exact coefficient_decimal _ exponent hzero
  rw [text, String.toList_ofList]
  generalize (if significand = 0 then ⟨0, 0⟩
    else decimal Json.numberLayout.tie significand exponent) = d at hchosen ⊢
  rcases hchosen with rfl | hne
  · rfl
  · have hdigits := isDigits_toDigits d.coefficient
    have hhead := head?_toDigits_ne hne
    split
    · exact isMagnitude_withPoint _ hdigits hhead
    · exact isMagnitude_withExponent _ hdigits hhead

end Shortest

/-- A floating-point number is written as a number, or as null. -/
theorem Json.written_ofBinary64 (x : Binary64) : (Json.ofBinary64 x).Written := by
  cases x with
  | nan => exact .null
  | infinite negative => exact .null
  | finite negative significand exponent =>
    refine .number ?_
    have hmagnitude := isNumber_of_isMagnitude (Shortest.isMagnitude_text significand exponent)
    rw [Binary64.text, String.toList_append]
    cases negative with
    | true => simpa [Binary64.sign] using hmagnitude.2
    | false => simpa [Binary64.sign] using hmagnitude.1

end CacheCheck
