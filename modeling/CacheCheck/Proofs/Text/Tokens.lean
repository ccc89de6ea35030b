import CacheCheck.Text.Tokens

/-!
Tokens that are joined by blanks are found again. A token is a text that has a character and no
blank one. A line of tokens, each but the last with a space behind it, splits into exactly those
tokens, and blanks at the end of the line make no further one (`words_intercalate`).

Any text is runs of characters that are not blank, with blanks around them and between any two of
them; there is one such layout, and the words of the text are the runs (`spaced_iff`).
-/

set_option autoImplicit false

namespace CacheCheck

/-- A text that can be a word of a line. -/
structure Token where
  text : String
  nonempty : text ≠ ""
  noBlank : ∀ c ∈ text.toList, isBlank c = false

theorem words_eq_nil_of_blank {s : String} (h : ∀ c ∈ s.toList, isBlank c = true) :
    words s = [] := by
  have hsplit : ∀ chars : List Char, (∀ c ∈ chars, isBlank c = true) →
      (chars.splitOnP isBlank).filter (!·.isEmpty) = [] := by
    intro chars hchars
    induction chars with
    | nil => simp
    | cons c rest ih =>
      rw [List.splitOnP_cons_eq_if_modifyHead, if_pos (hchars c List.mem_cons_self)]
      simpa using ih fun d hd ↦ hchars d (List.mem_cons_of_mem c hd)
  rw [words, hsplit s.toList h, List.map_nil]

theorem words_of_noBlank {s : String} (hsome : s ≠ "") (h : ∀ c ∈ s.toList, isBlank c = false) :
    words s = [s] := by
  have hchars : s.toList ≠ [] := fun hnil ↦ hsome (String.toList_inj.mp (by rw [hnil]; rfl))
  rw [words, List.splitOnP_eq_singleton h]
  simp [hchars]

namespace Token

/-- A word as a token; that it has no blank character is found by looking at each. -/
def word (text : String) (nonempty : text ≠ "") (h : text.toList.any isBlank = false) : Token where
  text := text
  nonempty := nonempty
  noBlank := by simpa using h

theorem toList_ne_nil (token : Token) : token.text.toList ≠ [] := fun h ↦
  token.nonempty (String.toList_inj.mp (by rw [h]; rfl))

/-- The digits of a number. -/
def number (n : Nat) : Token where
  text := toString n
  nonempty := Nat.repr_ne_empty
  noBlank := by
    intro c hc
    have hdigit : c.isDigit = true := by
      rw [Nat.toString_eq_repr, Nat.toList_repr] at hc
      exact Nat.isDigit_of_mem_toDigits (by omega) (by omega) hc
    simp only [Char.isDigit, Bool.and_eq_true, decide_eq_true_eq] at hdigit
    have hlow : 48 ≤ c.toNat := hdigit.1
    have hhigh : c.toNat ≤ 57 := hdigit.2
    simp only [isBlank, Bool.or_eq_false_iff, Bool.and_eq_false_iff, decide_eq_false_iff_not,
      beq_eq_false_iff_ne]
    omega

/-- A token with a blank behind it is the first word of a line. -/
theorem words_eq_cons (token : Token) {blank : Char} (hblank : isBlank blank = true)
    {s rest : String} (h : s.toList = token.text.toList ++ blank :: rest.toList) :
    words s = token.text :: words rest := by
  rw [words, h, List.splitOnP_append_cons_of_forall_mem token.noBlank blank hblank]
  simp [words, token.toList_ne_nil]

end Token

/-- The words of a line are the tokens that it was joined from. -/
theorem words_intercalate (line : List Token) {blanks : String} (hsome : blanks ≠ "")
    (hblanks : ∀ c ∈ blanks.toList, isBlank c = true) :
    words (" ".intercalate (line.map Token.text) ++ blanks) = line.map Token.text := by
  induction line with
  | nil => simpa using words_eq_nil_of_blank hblanks
  | cons token rest ih =>
    cases rest with
    | nil =>
      cases hlist : blanks.toList with
      | nil => exact absurd (String.toList_inj.mp (by rw [hlist]; rfl)) hsome
      | cons first more =>
        rw [hlist] at hblanks
        have hline : (" ".intercalate ([token].map Token.text) ++ blanks).toList =
            token.text.toList ++ first :: (String.ofList more).toList := by
          simp [String.toList_append, hlist]
        rw [token.words_eq_cons (hblanks first List.mem_cons_self) hline,
          words_eq_nil_of_blank fun c hc ↦ hblanks c (List.mem_cons_of_mem first (by simpa using hc))]
        rfl
    | cons next others =>
      have hline : (" ".intercalate ((token :: next :: others).map Token.text) ++ blanks).toList =
          token.text.toList ++
            ' ' :: (" ".intercalate ((next :: others).map Token.text) ++ blanks).toList := by
        simp [String.intercalate_cons_cons, String.toList_append]
      rw [token.words_eq_cons rfl hline, ih]
      rfl

/-! ### Any text -/

/-- A run of characters that can be a word. -/
structure IsRun (run : List Char) : Prop where
  nonempty : run ≠ []
  noBlank : ∀ c ∈ run, isBlank c = false

/-- How words lie in a text, with any blanks around them and at least one between two of them. -/
inductive Spaced : List Char → List String → Prop
  | none : Spaced [] []
  | blank {c : Char} {chars : List Char} {found : List String} (hc : isBlank c = true)
      (more : Spaced chars found) : Spaced (c :: chars) found
  | last {run : List Char} (hrun : IsRun run) : Spaced run [String.ofList run]
  | word {run : List Char} {c : Char} {chars : List Char} {found : List String}
      (hrun : IsRun run) (hc : isBlank c = true) (more : Spaced chars found) :
      Spaced (run ++ c :: chars) (String.ofList run :: found)

/-- A run as a token. -/
def IsRun.token {run : List Char} (hrun : IsRun run) : Token where
  text := String.ofList run
  nonempty := by simpa [← String.toList_inj] using hrun.nonempty
  noBlank := by
    rw [String.toList_ofList]
    exact hrun.noBlank

theorem IsRun.singleton {c : Char} (hc : isBlank c = false) : IsRun [c] where
  nonempty := List.cons_ne_nil c []
  noBlank := by simpa using hc

theorem IsRun.cons {c : Char} (hc : isBlank c = false) {run : List Char} (hrun : IsRun run) :
    IsRun (c :: run) where
  nonempty := List.cons_ne_nil c run
  noBlank := by simpa [hc] using hrun.noBlank

theorem words_cons_of_blank {c : Char} (hc : isBlank c = true) (chars : List Char) :
    words (String.ofList (c :: chars)) = words (String.ofList chars) := by
  rw [words, String.toList_ofList, List.splitOnP_cons_eq_if_modifyHead, if_pos hc]
  simp [words]

theorem Spaced.words_eq {chars : List Char} {found : List String} (h : Spaced chars found) :
    words (String.ofList chars) = found := by
  induction h with
  | none => exact words_eq_nil_of_blank fun _ hc ↦ by cases hc
  | blank hc more ih => rw [words_cons_of_blank hc, ih]
  | last hrun => exact words_of_noBlank hrun.token.nonempty hrun.token.noBlank
  | @word run c chars found hrun hc more ih =>
    have hline : (String.ofList (run ++ c :: chars)).toList =
        hrun.token.text.toList ++ c :: (String.ofList chars).toList := by
      simp only [IsRun.token, String.toList_ofList]
    rw [hrun.token.words_eq_cons hc hline, ih]
    rfl

/-- A character that is not blank is a word, or the beginning of the one behind it. -/
theorem Spaced.exists_cons {c : Char} (hc : isBlank c = false) {chars : List Char}
    {found : List String} (h : Spaced chars found) : ∃ found', Spaced (c :: chars) found' := by
  cases h with
  | none => exact ⟨_, .last (.singleton hc)⟩
  | blank hblank more => exact ⟨_, .word (.singleton hc) hblank more⟩
  | last hrun => exact ⟨_, .last (hrun.cons hc)⟩
  | word hrun hblank more => exact ⟨_, .word (hrun.cons hc) hblank more⟩

theorem exists_spaced (chars : List Char) : ∃ found, Spaced chars found := by
  induction chars with
  | nil => exact ⟨[], .none⟩
  | cons c rest ih =>
    obtain ⟨found, hrest⟩ := ih
    cases hc : isBlank c with
    | true => exact ⟨found, .blank hc hrest⟩
    | false => exact hrest.exists_cons hc

/-- The words of a text are those that lie in it. -/
theorem spaced_iff {s : String} {found : List String} :
    Spaced s.toList found ↔ words s = found := by
  constructor
  · intro h
    rw [← h.words_eq, String.ofList_toList]
  · rintro rfl
    obtain ⟨found, h⟩ := exists_spaced s.toList
    have hwords := h.words_eq
    rw [String.ofList_toList] at hwords
    exact hwords ▸ h

end CacheCheck
