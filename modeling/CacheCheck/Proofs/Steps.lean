/-!
Computations that go on until one of their steps fails.
-/

set_option autoImplicit false

namespace CacheCheck

variable {ε α β : Type} {first : Except ε α} {next : α → Except ε β}

theorem ok_bind (value : α) : (.ok value >>= next : Except ε β) = next value :=
  rfl

theorem bind_eq_ok_iff {result : β} :
    first >>= next = .ok result ↔ ∃ value, first = .ok value ∧ next value = .ok result := by
  cases first with
  | error fault => exact iff_of_false nofun (by rintro ⟨_, h, -⟩; cases h)
  | ok value =>
    refine ⟨fun h ↦ ⟨value, rfl, h⟩, ?_⟩
    rintro ⟨_, ⟨⟩, h⟩
    exact h

/-- Computations that come to the same, apart from why they fail. -/
theorem eq_ok_or_error_of_toOption_eq {first second : Except ε α}
    (h : second.toOption = first.toOption) :
    (∃ value, first = .ok value ∧ second = .ok value) ∨
      ∃ fault other, first = .error fault ∧ second = .error other := by
  cases first with
  | error fault =>
    cases second with
    | error other => exact .inr ⟨fault, other, rfl, rfl⟩
    | ok value => cases h
  | ok value =>
    cases second with
    | error other => cases h
    | ok again =>
      cases h
      exact .inl ⟨value, rfl, rfl⟩

/-- Whether all of a list can be read, and as what, does not depend on why some of it cannot. -/
theorem toOption_mapM (read : α → Except ε β) (texts : List α) :
    (texts.mapM read).toOption = texts.mapM fun text ↦ (read text).toOption := by
  induction texts with
  | nil => rfl
  | cons text rest ih =>
    rw [List.mapM_cons, List.mapM_cons, ← ih]
    cases read text with
    | error fault => rfl
    | ok value => cases rest.mapM read <;> rfl

end CacheCheck
