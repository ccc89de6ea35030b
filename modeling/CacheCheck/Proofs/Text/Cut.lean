import CacheCheck.Proofs.Text.Tokens
import CacheCheck.Proofs.Text.Utf8

/-!
Texts that are cut off. Bytes from the front of an encoded text that can be read at all are read as
the front of the text, since the bytes of a character show where they end (`isPrefix_of_decode?`).
The words in front of a line of tokens are tokens of the line, but for the last of them, which may
be the front of a token (`cutWords_of_isPrefix`). A line feed behind bytes is read as one, whatever
they are, and makes no further word.
-/

set_option autoImplicit false

namespace CacheCheck

/-- The front of two lists that are joined ends in the first or in the second. -/
theorem isPrefix_append_iff {α : Type} {front first second : List α} :
    front <+: first ++ second ↔
      front <+: first ∨ ∃ rest, front = first ++ rest ∧ rest <+: second := by
  constructor
  · intro h
    rcases List.prefix_or_prefix_of_prefix h (List.prefix_append first second) with hfirst | hmore
    · exact .inl hfirst
    · obtain ⟨rest, rfl⟩ := hmore
      exact .inr ⟨rest, rfl, (List.prefix_append_right_inj first).mp h⟩
  · rintro (hfirst | ⟨rest, rfl, hrest⟩)
    · exact hfirst.trans (List.prefix_append first second)
    · exact (List.prefix_append_right_inj first).mpr hrest

namespace Utf8

/-! ### Bytes of a text that was cut off -/

/-- Characters whose bytes are in front of those of others are in front of those. -/
theorem isPrefix_of_flatMap {chars others : List Char}
    (h : chars.flatMap String.utf8EncodeChar <+: others.flatMap String.utf8EncodeChar) :
    chars <+: others := by
  induction chars generalizing others with
  | nil => exact List.nil_prefix
  | cons c chars ih =>
    obtain ⟨behind, h⟩ := h
    cases others with
    | nil =>
      obtain ⟨b, more, hbytes, -⟩ := next_utf8EncodeChar c
      simp [hbytes] at h
    | cons d others =>
      rw [List.flatMap_cons, List.flatMap_cons, List.append_assoc] at h
      obtain ⟨rfl, hrest⟩ := utf8EncodeChar_append_inj h
      exact (List.prefix_cons_inj c).mpr (ih ⟨behind, hrest⟩)

/-- Bytes from the front of a text are read as the front of the text, or not at all. -/
theorem isPrefix_of_decode? {s t : String} {front : List UInt8} (h : front <+: encode s)
    (hread : decode? front = some t) : t.toList <+: s.toList := by
  rw [decode?_eq_some_iff.mp hread] at h
  exact isPrefix_of_flatMap h

/-! ### A line feed behind bytes -/

theorem follow_append_feed (more high bits : Nat) {low : Nat} (hlow : 0x0A < low)
    (bytes : List UInt8) :
    follow more low high bits (bytes ++ [0x0A]) =
      ((follow more low high bits bytes).1, (follow more low high bits bytes).2 ++ [0x0A]) := by
  induction more generalizing low high bits bytes with
  | zero => rfl
  | succ more ih =>
    cases bytes with
    | nil =>
      have hrange : ¬ (low ≤ (0x0A : UInt8).toNat ∧ (0x0A : UInt8).toNat ≤ high) := by
        rintro ⟨hle, -⟩
        exact absurd hle (Nat.not_le.mpr hlow)
      simp only [List.nil_append, follow, if_neg hrange]
    | cons b rest =>
      rw [List.cons_append, follow, follow]
      split
      · exact ih _ _ (by decide) rest
      · rfl

theorem lt_low_of_lead? {b : Nat} {lead : Lead} (h : lead? b = some lead) : 0x0A < lead.low := by
  unfold lead? at h
  grind

theorem next_append_feed (b : UInt8) (bytes : List UInt8) :
    next b (bytes ++ [0x0A]) = ((next b bytes).1, (next b bytes).2 ++ [0x0A]) := by
  unfold next
  cases hlead : lead? b.toNat with
  | none => rfl
  | some lead => exact follow_append_feed _ _ _ (lt_low_of_lead? hlead) bytes

/-- A line feed is read as such behind any bytes. -/
theorem pieces_append_feed (bytes : List UInt8) :
    pieces (bytes ++ [0x0A]) = pieces bytes ++ [some '\n'] := by
  cases bytes with
  | nil =>
    rw [pieces]
    exact pieces_encode "\n"
  | cons b rest =>
    rw [List.cons_append, pieces, pieces, next_append_feed, pieces_append_feed]
    rfl
  termination_by bytes.length
  decreasing_by exact Nat.lt_succ_of_le (length_next_le b rest)

theorem decode?_append_feed (bytes : List UInt8) :
    decode? (bytes ++ [0x0A]) = (decode? bytes).map (· ++ "\n") := by
  unfold decode?
  rw [pieces_append_feed, List.mapM_append]
  cases (pieces bytes).mapM id with
  | none => rfl
  | some chars =>
    refine congrArg some (String.toList_inj.mp ?_)
    simp [String.toList_append]

end Utf8

/-! ### Words of a line that was cut off -/

theorem words_empty : words "" = [] :=
  words_eq_nil_of_blank fun _ hc ↦ by cases hc

/-- A line feed at the end of a line makes no further word. -/
theorem words_append_feed (s : String) : words (s ++ "\n") = words s := by
  have hsplit : (s ++ "\n").toList.splitOnP isBlank = s.toList.splitOnP isBlank ++ [[]] := by
    rw [String.toList_append]
    exact List.splitOnP_append_cons s.toList [] (by decide)
  rw [words, hsplit, List.filter_append]
  simp [words]

/-- The front of a token with a blank and more behind it ends before the token, in it, or behind
the blank. -/
theorem words_of_isPrefix_cons (token : Token) {blank : Char} (hblank : isBlank blank = true)
    {text : String} {more : List Char} (h : text.toList <+: token.text.toList ++ blank :: more) :
    words text = [] ∨
      (text ≠ "" ∧ text ≠ token.text ∧ text.toList <+: token.text.toList ∧ words text = [text]) ∨
      ∃ rest : String, rest.toList <+: more ∧ words text = token.text :: words rest := by
  rcases isPrefix_append_iff.mp h with hcut | ⟨behind, htext, hbehind⟩
  · have hnoBlank : ∀ c ∈ text.toList, isBlank c = false :=
      fun c hc ↦ token.noBlank c (hcut.subset hc)
    by_cases hempty : text = ""
    · exact .inl (hempty ▸ words_empty)
    have hwords := words_of_noBlank hempty hnoBlank
    by_cases hwhole : text = token.text
    · exact .inr (.inr ⟨"", List.nil_prefix, by rw [hwords, words_empty, hwhole]⟩)
    · exact .inr (.inl ⟨hempty, hwhole, hcut, hwords⟩)
  · rcases List.prefix_cons_iff.mp hbehind with rfl | ⟨rest, rfl, hrest⟩
    · have hwhole : text = token.text := by
        rw [← String.toList_inj, htext, List.append_nil]
      have hwords := words_of_noBlank token.nonempty token.noBlank
      exact .inr (.inr ⟨"", List.nil_prefix, by rw [hwhole, hwords, words_empty]⟩)
    · refine .inr (.inr ⟨String.ofList rest, by rwa [String.toList_ofList], ?_⟩)
      exact token.words_eq_cons hblank (by rw [htext, String.toList_ofList])

/-- What words of a line are there when its text is cut off: the first of its tokens, perhaps with
the front of the next one behind them. -/
inductive CutWords (tokens : List Token) : List String → Prop
  | between (count : Nat) : CutWords tokens ((tokens.take count).map Token.text)
  | within {count : Nat} {token : Token} {cut : String} (token_at : tokens[count]? = some token)
      (nonempty : cut ≠ "") (ne_token : cut ≠ token.text)
      (isPrefix : cut.toList <+: token.text.toList) :
      CutWords tokens ((tokens.take count).map Token.text ++ [cut])

theorem CutWords.cons (token : Token) {line : List Token} {found : List String}
    (h : CutWords line found) : CutWords (token :: line) (token.text :: found) := by
  cases h with
  | between count => exact .between (count + 1)
  | @within count next cut token_at nonempty ne_token isPrefix =>
    have hnext : (token :: line)[count + 1]? = some next := token_at
    exact .within hnext nonempty ne_token isPrefix

/-- The first word that is there is the first token of the line, or is cut off and the only one. -/
theorem CutWords.uncons {token : Token} {line : List Token} {word : String} {more : List String}
    (h : CutWords (token :: line) (word :: more)) :
    (word = token.text ∧ CutWords line more) ∨
      (more = [] ∧ word ≠ "" ∧ word ≠ token.text ∧ word.toList <+: token.text.toList) := by
  generalize hfound : word :: more = found at h
  cases h with
  | between count =>
    cases count with
    | zero => cases hfound
    | succ count =>
      obtain ⟨rfl, rfl⟩ := List.cons.inj hfound
      exact .inl ⟨rfl, .between count⟩
  | @within count next cut token_at nonempty ne_token isPrefix =>
    cases count with
    | zero =>
      cases token_at
      obtain ⟨rfl, rfl⟩ := List.cons.inj hfound
      exact .inr ⟨rfl, nonempty, ne_token, isPrefix⟩
    | succ count =>
      obtain ⟨rfl, rfl⟩ := List.cons.inj hfound
      exact .inl ⟨rfl, .within token_at nonempty ne_token isPrefix⟩

/-- The front of a line that begins with a token and a blank. -/
theorem CutWords.of_isPrefix_cons (token : Token) {line : List Token} (blank : Char)
    (hblank : isBlank blank = true) {text : String} (more : List Char)
    (h : text.toList <+: token.text.toList ++ blank :: more)
    (hmore : ∀ rest : String, rest.toList <+: more → CutWords line (words rest)) :
    CutWords (token :: line) (words text) := by
  rcases words_of_isPrefix_cons token hblank h with
    hwords | ⟨hempty, hwhole, hcut, hwords⟩ | ⟨rest, hrest, hwords⟩
  · rw [hwords]
    exact .between 0
  · have hfirst : (token :: line)[0]? = some token := rfl
    rw [hwords]
    exact .within hfirst hempty hwhole hcut
  · rw [hwords]
    exact (hmore rest hrest).cons token

theorem CutWords.of_blanks {blanks : List Char} (hblanks : ∀ c ∈ blanks, isBlank c = true)
    {text : String} (h : text.toList <+: blanks) : CutWords [] (words text) := by
  rw [words_eq_nil_of_blank fun c hc ↦ hblanks c (h.subset hc)]
  exact .between 0

/-- The words in front of a line of tokens are words of the line that was cut off. -/
theorem cutWords_of_isPrefix (line : List Token) {text : String}
    (h : text.toList <+: (" ".intercalate (line.map Token.text) ++ "\r\n").toList) :
    CutWords line (words text) := by
  induction line generalizing text with
  | nil =>
    have hblanks : text.toList <+: ['\r', '\n'] := h
    exact .of_blanks (by simp [isBlank]) hblanks
  | cons token rest ih =>
    cases rest with
    | nil =>
      have hline : text.toList <+: token.text.toList ++ '\r' :: ['\n'] := by
        simpa [String.toList_append] using h
      exact .of_isPrefix_cons token '\r' rfl ['\n'] hline fun rest hrest ↦
        .of_blanks (by simp [isBlank]) hrest
    | cons next others =>
      refine .of_isPrefix_cons token ' ' rfl _ ?_ fun rest hrest ↦ ih hrest
      simpa [String.intercalate_cons_cons, String.toList_append] using h

end CacheCheck
