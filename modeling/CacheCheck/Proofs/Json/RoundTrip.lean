import CacheCheck.Proofs.Json.Reading

/-!
Reading undoes writing. A value whose numbers are numbers (`Written`) is read back from its text,
whatever the depth of its line, with what stands behind it left over (`readValue_layOut`). A
character is read back from its escape, so a string is from its quotation, whatever it holds; an
item is read back in front of the other items, and these by induction on their list.
-/

set_option autoImplicit false

namespace CacheCheck.Json

/-! ### Blanks -/

theorem skipBlanks_cons {c : Char} (h : isBlank c = false) (rest : List Char) :
    skipBlanks (c :: rest) = c :: rest := by
  simp [skipBlanks, h]

theorem skipBlanks_newline_append (depth : Nat) (chars : List Char) :
    skipBlanks (newline depth ++ chars) = skipBlanks chars := by
  refine List.dropWhile_append_of_pos fun c hc ↦ ?_
  rcases List.mem_cons.mp hc with rfl | hspace
  · rfl
  · rw [List.eq_of_mem_replicate hspace]
    rfl

/-! ### Strings -/

theorem readHex4_hex4_append {n : Nat} (h : n < 0x10000) (rest : List Char) :
    readHex4 (hex4 n ++ rest) = some (n, rest) := by
  have hdigit (k : Nat) : Hexadecimal.digit? (Nat.digitChar (k % 16)) = some (k % 16) :=
    Hexadecimal.digit?_digitChar (Nat.mod_lt k (by omega))
  have hsum : n / 4096 % 16 * 4096 + n / 256 % 16 * 256 + n / 16 % 16 * 16 + n % 16 = n := by
    omega
  simp [hex4, readHex4, hdigit, hsum]

/-- A character is escaped by one letter, or as a control character by its number, or not at all. -/
theorem escape_cases (c : Char) :
    (∃ letter, escape c = ['\\', letter] ∧ letter ≠ 'u' ∧ shortEscapes.lookup letter = some c) ∨
      (escape c = '\\' :: 'u' :: hex4 c.toNat ∧ c.toNat < 0x20) ∨
      (escape c = [c] ∧ c ≠ '\\' ∧ c ≠ '"' ∧ ¬ c.toNat < 0x20) := by
  unfold escape
  iterate 7
    split
    · next h => exact Or.inl ⟨_, rfl, by decide, by subst h; rfl⟩
  split
  · next h => exact Or.inr (Or.inl ⟨rfl, h⟩)
  · next h => exact Or.inr (Or.inr ⟨rfl, ‹_›, ‹_›, h⟩)

/-- A character is read back from its escape. -/
theorem readCharacter_escape_append (c : Char) (rest : List Char) :
    readCharacter (escape c ++ rest) = some (c, rest) := by
  obtain ⟨letter, hescape, hletter, hlookup⟩ | ⟨hescape, hcontrol⟩ |
    ⟨hescape, hbackslash, hquote, hcontrol⟩ := escape_cases c
  · rw [hescape, List.cons_append, List.singleton_append, readCharacter, hlookup, Option.map_some]
    exact hletter
  · have hbelow : c.toNat < 0xD800 ∨ 0xDFFF < c.toNat := Or.inl (by omega)
    rw [hescape, List.cons_append, List.cons_append, readCharacter, readUnicode,
      readHex4_hex4_append (by omega)]
    simp [hbelow]
  · rw [hescape, List.singleton_append, readCharacter]
    · simp [hbackslash, hquote, hcontrol]
    · exact fun _ h ↦ absurd h hbackslash
    · exact fun _ _ h ↦ absurd h hbackslash

/-- No escape begins with a quote. -/
theorem exists_escape_eq_cons (c : Char) :
    ∃ first more, escape c = first :: more ∧ first ≠ '"' := by
  have hslash : '\\' ≠ '"' := by decide
  obtain ⟨letter, hescape, -⟩ | ⟨hescape, -⟩ | ⟨hescape, -, hquote, -⟩ := escape_cases c
  · exact ⟨_, _, hescape, hslash⟩
  · exact ⟨_, _, hescape, hslash⟩
  · exact ⟨_, _, hescape, hquote⟩

theorem readCharacters_flatMap_escape (chars : List Char) {calls : Nat} (rest : List Char)
    (hcalls : (chars.flatMap escape).length < calls) :
    readCharacters calls (chars.flatMap escape ++ '"' :: rest) = some (chars, rest) := by
  induction chars generalizing calls with
  | nil =>
    obtain ⟨calls, rfl⟩ := Nat.exists_eq_succ_of_ne_zero (Nat.ne_zero_of_lt hcalls)
    rfl
  | cons c chars ih =>
    obtain ⟨calls, rfl⟩ := Nat.exists_eq_succ_of_ne_zero (Nat.ne_zero_of_lt hcalls)
    obtain ⟨first, more, hescape, hquote⟩ := exists_escape_eq_cons c
    have hfuel : (chars.flatMap escape).length < calls := by
      simp only [List.flatMap_cons, List.length_append, hescape, List.length_cons] at hcalls
      omega
    have hread := readCharacter_escape_append c (chars.flatMap escape ++ '"' :: rest)
    rw [List.flatMap_cons, List.append_assoc]
    rw [hescape, List.cons_append] at hread ⊢
    rw [readCharacters, hread]
    · simp [ih hfuel]
    · intro _ h
      exact hquote (List.cons.inj h).1

/-- A string is read back from its quotation. -/
theorem readString_quoted_append (s : String) {calls : Nat} (rest : List Char)
    (hcalls : (quoted s).length ≤ calls) :
    readString calls (quoted s ++ rest) = some (s, rest) := by
  have hfuel : (s.toList.flatMap escape).length < calls := by
    simp only [quoted, List.length_cons, List.length_append] at hcalls
    omega
  have hquoted : quoted s ++ rest = '"' :: (s.toList.flatMap escape ++ '"' :: rest) := by
    simp [quoted]
  rw [hquoted, readString, readCharacters_flatMap_escape s.toList rest hfuel, Option.map_some]
  simp only [String.ofList_toList]

/-! ### Numbers -/

theorem isNumberChar_of_isDigit {c : Char} (h : c.isDigit = true) : isNumberChar c = true := by
  simp [isNumberChar, h]

theorem isDigit_of_isDigits {chars : List Char} (h : isDigits chars = true) :
    ∀ c ∈ chars, c.isDigit = true := by
  rw [isDigits, Bool.and_eq_true, List.all_eq_true] at h
  exact h.2

theorem isNumberChar_of_isDigits {chars : List Char} (h : isDigits chars = true) :
    ∀ c ∈ chars, isNumberChar c = true :=
  fun c hc ↦ isNumberChar_of_isDigit (isDigit_of_isDigits h c hc)

theorem isNumberChar_of_isExponent {chars : List Char} (h : isExponent chars = true) :
    ∀ c ∈ chars, isNumberChar c = true := by
  cases chars with
  | nil => simp
  | cons mark rest =>
    simp only [isExponent, Bool.and_eq_true, Bool.or_eq_true, decide_eq_true_eq] at h
    obtain ⟨hmark, hdigits⟩ := h
    rw [List.forall_mem_cons]
    constructor
    · rcases hmark with rfl | rfl <;> rfl
    · unfold withoutSign at hdigits
      split at hdigits
      · exact List.forall_mem_cons.mpr ⟨rfl, isNumberChar_of_isDigits hdigits⟩
      · exact List.forall_mem_cons.mpr ⟨rfl, isNumberChar_of_isDigits hdigits⟩
      · exact isNumberChar_of_isDigits hdigits

/-- The digits in front are characters of a number, as is what follows them. -/
theorem isNumberChar_of_dropWhile {chars : List Char}
    (h : ∀ c ∈ chars.dropWhile Char.isDigit, isNumberChar c = true) :
    ∀ c ∈ chars, isNumberChar c = true := by
  intro c hc
  rw [← List.takeWhile_append_dropWhile (l := chars) (p := Char.isDigit), List.mem_append] at hc
  rcases hc with hdigit | hbehind
  · exact isNumberChar_of_isDigit (List.all_eq_true.mp List.all_takeWhile c hdigit)
  · exact h c hbehind

theorem isNumberChar_of_isMagnitude {chars : List Char} (h : isMagnitude chars = true) :
    ∀ c ∈ chars, isNumberChar c = true := by
  rw [isMagnitude, Bool.and_eq_true] at h
  refine isNumberChar_of_dropWhile ?_
  have hfraction := h.2
  unfold isFraction at hfraction
  split at hfraction
  · next rest hpoint =>
    rw [Bool.and_eq_true] at hfraction
    rw [hpoint]
    exact List.forall_mem_cons.mpr
      ⟨rfl, isNumberChar_of_dropWhile (isNumberChar_of_isExponent hfraction.2)⟩
  · exact isNumberChar_of_isExponent hfraction

/-- A number is made of characters of a number. -/
theorem isNumberChar_of_isNumber {chars : List Char} (h : isNumber chars = true) :
    ∀ c ∈ chars, isNumberChar c = true := by
  unfold isNumber at h
  split at h
  · exact List.forall_mem_cons.mpr ⟨rfl, isNumberChar_of_isMagnitude h⟩
  · exact isNumberChar_of_isMagnitude h

theorem isNumber_ne_nil {chars : List Char} (h : isNumber chars = true) : chars ≠ [] := by
  rintro rfl
  cases h

/-- Characters of a kind end where one of another kind follows. -/
theorem takeWhile_append_of_head {kind : Char → Bool} {chars rest : List Char}
    (hchars : ∀ c ∈ chars, kind c = true) (hrest : ∀ c ∈ rest.head?, kind c = false) :
    (chars ++ rest).takeWhile kind = chars ∧ (chars ++ rest).dropWhile kind = rest := by
  rw [List.takeWhile_append_of_pos hchars, List.dropWhile_append_of_pos hchars]
  cases rest with
  | nil => simp
  | cons c rest =>
    have hc : kind c = false := hrest c rfl
    simp [hc]

/-- What may follow a number: something else than a character of one, or nothing. -/
def EndsNumber (rest : List Char) : Prop :=
  ∀ c ∈ rest.head?, isNumberChar c = false

theorem endsNumber_cons {c : Char} (h : isNumberChar c = false) (rest : List Char) :
    EndsNumber (c :: rest) := by
  simpa [EndsNumber] using h

/-- A number is read back in front of anything that ends it. -/
theorem readNumber_append {chars rest : List Char} (h : isNumber chars = true)
    (hrest : EndsNumber rest) :
    readNumber (chars ++ rest) = some (.number (String.ofList chars), rest) := by
  obtain ⟨htake, hdrop⟩ := takeWhile_append_of_head (isNumberChar_of_isNumber h) hrest
  rw [readNumber, htake, hdrop, if_pos h]

/-! ### Values -/

/-- A value whose numbers are numbers. -/
inductive Written : Json → Prop
  | null : Written .null
  | number {text : String} (h : isNumber text.toList = true) : Written (.number text)
  | string (text : String) : Written (.string text)
  | array {items : List Json} (h : ∀ item ∈ items, Written item) : Written (.array items)
  | object {members : List (String × Json)} (h : ∀ member ∈ members, Written member.2) :
    Written (.object members)

theorem isBlank_of_isNumberChar {c : Char} (h : isNumberChar c = true) : isBlank c = false := by
  rw [← Bool.not_eq_true]
  intro hblank
  rcases (by simpa [isBlank, or_assoc] using hblank :
    c = ' ' ∨ c = '\n' ∨ c = '\r' ∨ c = '\t') with rfl | rfl | rfl | rfl <;> cases h

/-- A value begins with something else than a blank or a closing bracket. -/
theorem Written.exists_layOut_eq_cons {value : Json} (h : Written value) (depth : Nat) :
    ∃ c more, layOut depth value = c :: more ∧ isBlank c = false ∧ c ≠ ']' := by
  cases h with
  | null => exact ⟨_, _, rfl, rfl, by decide⟩
  | string text => exact ⟨_, _, by rw [layOut, quoted], rfl, by decide⟩
  | @array items h => cases items <;> exact ⟨_, _, by rw [layOut], rfl, by decide⟩
  | @object members h => cases members <;> exact ⟨_, _, by rw [layOut], rfl, by decide⟩
  | @number text h =>
    obtain ⟨c, more, hchars⟩ := List.exists_cons_of_ne_nil (isNumber_ne_nil h)
    have hc : isNumberChar c = true := isNumberChar_of_isNumber h c (hchars ▸ List.mem_cons_self)
    refine ⟨c, more, by rw [layOut, hchars], isBlank_of_isNumberChar hc, ?_⟩
    rintro rfl
    cases hc

theorem readValue_newline_append (calls depth : Nat) (chars : List Char) :
    readValue calls (newline depth ++ chars) = readValue calls chars := by
  cases calls with
  | zero => rfl
  | succ calls => simp only [readValue, skipBlanks_newline_append]

theorem readValue_of_isNumberChar {c : Char} (h : isNumberChar c = true) (calls : Nat)
    (more : List Char) : readValue (calls + 1) (c :: more) = readNumber (c :: more) := by
  have hne {other : Char} (hother : isNumberChar other = false) : c ≠ other := by
    rintro rfl
    rw [h] at hother
    cases hother
  rw [readValue, skipBlanks_cons (isBlank_of_isNumberChar h)]
  split
  · next heq => exact absurd (List.cons.inj heq).1 (hne rfl)
  · next heq => exact absurd (List.cons.inj heq).1 (hne rfl)
  · next heq => exact absurd (List.cons.inj heq).1 (hne rfl)
  · next heq => exact absurd (List.cons.inj heq).1 (hne rfl)
  · rfl

/-- Whether a value is read back from its text in front of anything that ends it. Three calls a
character are enough. -/
def ReadsBack (value : Json) : Prop :=
  ∀ (depth calls : Nat) (rest : List Char), EndsNumber rest →
    3 * (layOut depth value).length ≤ calls →
      readValue calls (layOut depth value ++ rest) = some (value, rest)

theorem readsBack_null : ReadsBack .null := by
  intro depth calls rest hrest hcalls
  cases calls with
  | zero => cases hcalls
  | succ calls => rfl

theorem readsBack_number {text : String} (h : isNumber text.toList = true) :
    ReadsBack (.number text) := by
  intro depth calls rest hrest hcalls
  rw [layOut] at hcalls ⊢
  obtain ⟨c, more, hchars⟩ := List.exists_cons_of_ne_nil (isNumber_ne_nil h)
  have hc : isNumberChar c = true := isNumberChar_of_isNumber h c (hchars ▸ List.mem_cons_self)
  cases calls with
  | zero => simp [hchars] at hcalls
  | succ calls =>
    have hread := readNumber_append h hrest
    rw [String.ofList_toList] at hread
    rw [← hread, hchars, List.cons_append, readValue_of_isNumberChar hc]

theorem readsBack_string (text : String) : ReadsBack (.string text) := by
  intro depth calls rest hrest hcalls
  rw [layOut] at hcalls ⊢
  have hlength : 0 < (quoted text).length := by simp [quoted]
  cases calls with
  | zero => omega
  | succ calls =>
    have hread := readString_quoted_append text rest (show (quoted text).length ≤ calls by omega)
    rw [quoted, List.cons_append] at hread ⊢
    rw [readValue, skipBlanks_cons rfl]
    simp only [hread, Option.map_some]

theorem skipBlanks_newline_cons {c : Char} (h : isBlank c = false) (depth : Nat)
    (rest : List Char) : skipBlanks (newline depth ++ c :: rest) = c :: rest := by
  rw [skipBlanks_newline_append, skipBlanks_cons h]

/-! ### Items -/

section Items

variable {calls : Nat} {chars rest last : List Char} {item : Json} {items : List Json}

theorem readSomeItems_close (hitem : readValue calls chars = some (item, rest))
    (hclose : skipBlanks rest = ']' :: last) :
    readSomeItems (calls + 1) chars = some ([item], last) := by
  rw [readSomeItems, hitem]
  simp [hclose]

theorem readSomeItems_comma {others : List Char} (hitem : readValue calls chars = some (item, rest))
    (hcomma : skipBlanks rest = ',' :: others)
    (hitems : readSomeItems calls others = some (items, last)) :
    readSomeItems (calls + 1) chars = some (item :: items, last) := by
  rw [readSomeItems, hitem]
  simp [hcomma, hitems]

theorem readItems_cons {c : Char} {more : List Char} (hskip : skipBlanks chars = c :: more)
    (hc : c ≠ ']') : readItems (calls + 1) chars = readSomeItems calls (c :: more) := by
  rw [readItems, hskip]
  split
  · next heq => exact absurd (List.cons.inj heq).1 hc
  · rfl

theorem readSomeItems_newline_append (depth : Nat) :
    readSomeItems calls (newline depth ++ chars) = readSomeItems calls chars := by
  cases calls with
  | zero => rfl
  | succ calls => simp only [readSomeItems, readValue_newline_append]

/-- An item is read back in front of the others, since a comma or a line end follows it. -/
theorem readSomeItems_append (depth : Nat) (rest : List Char) (hitem : ReadsBack item)
    (hitems : ∀ other ∈ items, ReadsBack other)
    (hcalls : 3 * (layOut (depth + 1) item ++ layOutItems depth items).length ≤ calls) :
    readSomeItems calls (layOut (depth + 1) item ++ (layOutItems depth items ++ rest)) =
      some (item :: items, rest) := by
  -- On the items behind the first: the first of these takes the place of `item`.
  induction items generalizing item calls with
  | nil =>
    simp only [layOutItems, newline, List.length_append, List.length_cons] at hcalls
    rw [layOutItems, List.append_assoc, List.singleton_append]
    obtain ⟨calls, rfl⟩ := Nat.exists_eq_add_of_le' (show 1 ≤ calls by omega)
    exact readSomeItems_close (hitem (depth + 1) calls _ (endsNumber_cons rfl _) (by omega))
      (skipBlanks_newline_cons rfl depth rest)
  | cons next items ih =>
    obtain ⟨hnext, hlater⟩ := List.forall_mem_cons.mp hitems
    simp only [layOutItems, List.length_append, List.length_cons] at hcalls
    rw [layOutItems, List.cons_append, List.append_assoc, List.append_assoc]
    obtain ⟨calls, rfl⟩ := Nat.exists_eq_add_of_le' (show 1 ≤ calls by omega)
    have hfuel : 3 * (layOut (depth + 1) next ++ layOutItems depth items).length ≤ calls := by
      rw [List.length_append]
      omega
    have hothers := ih hnext hlater hfuel
    rw [← readSomeItems_newline_append (depth + 1)] at hothers
    exact readSomeItems_comma (hitem (depth + 1) calls _ (endsNumber_cons rfl _) (by omega))
      (skipBlanks_cons rfl _) hothers

theorem readsBack_array (hwritten : ∀ item ∈ items, Written item)
    (h : ∀ item ∈ items, ReadsBack item) : ReadsBack (.array items) := by
  intro depth calls rest hrest hcalls
  cases items with
  | nil =>
    simp only [layOut, List.length_cons, List.length_nil] at hcalls
    obtain ⟨calls, rfl⟩ := Nat.exists_eq_add_of_le' (show 2 ≤ calls by omega)
    rfl
  | cons item items =>
    obtain ⟨hitem, hitems⟩ := List.forall_mem_cons.mp h
    obtain ⟨c, more, hhead, hblank, hclose⟩ :=
      (hwritten item List.mem_cons_self).exists_layOut_eq_cons (depth + 1)
    rw [layOut] at hcalls ⊢
    simp only [List.length_append, List.length_cons] at hcalls
    obtain ⟨calls, rfl⟩ := Nat.exists_eq_add_of_le' (show 2 ≤ calls by omega)
    have hfuel : 3 * (layOut (depth + 1) item ++ layOutItems depth items).length ≤ calls := by
      rw [List.length_append]
      omega
    have hread := readSomeItems_append depth rest hitem hitems hfuel
    have hskip : skipBlanks
        (newline (depth + 1) ++ (layOut (depth + 1) item ++ (layOutItems depth items ++ rest))) =
          c :: (more ++ (layOutItems depth items ++ rest)) := by
      rw [hhead, List.cons_append, skipBlanks_newline_cons hblank]
    rw [hhead, List.cons_append] at hread
    rw [List.cons_append, readValue, skipBlanks_cons rfl]
    simp only [List.append_assoc]
    rw [readItems_cons hskip hclose, hread, Option.map_some]

end Items

/-! ### Members -/

section Members

variable {calls : Nat} {chars rest last : List Char} {name : String} {value : Json}
  {members : List (String × Json)}

theorem skipBlanks_quoted_append (name : String) (chars : List Char) :
    skipBlanks (quoted name ++ chars) = quoted name ++ chars := by
  rw [quoted, List.cons_append, skipBlanks_cons rfl]

theorem readValue_space_cons : readValue calls (' ' :: chars) = readValue calls chars := by
  cases calls <;> rfl

theorem readSomeMembers_close (hcalls : (quoted name).length ≤ calls)
    (hvalue : readValue calls chars = some (value, rest))
    (hclose : skipBlanks rest = '\x7d' :: last) :
    readSomeMembers (calls + 1) (quoted name ++ ':' :: ' ' :: chars) =
      some ([(name, value)], last) := by
  rw [readSomeMembers, skipBlanks_quoted_append, readString_quoted_append name _ hcalls]
  simp [skipBlanks_cons (show isBlank ':' = false from rfl), readValue_space_cons, hvalue, hclose]

theorem readSomeMembers_comma {others : List Char} (hcalls : (quoted name).length ≤ calls)
    (hvalue : readValue calls chars = some (value, rest))
    (hcomma : skipBlanks rest = ',' :: others)
    (hmembers : readSomeMembers calls others = some (members, last)) :
    readSomeMembers (calls + 1) (quoted name ++ ':' :: ' ' :: chars) =
      some ((name, value) :: members, last) := by
  rw [readSomeMembers, skipBlanks_quoted_append, readString_quoted_append name _ hcalls]
  simp [skipBlanks_cons (show isBlank ':' = false from rfl), readValue_space_cons, hvalue, hcomma,
    hmembers]

theorem readMembers_quoted (hskip : skipBlanks chars = quoted name ++ rest) :
    readMembers (calls + 1) chars = readSomeMembers calls (quoted name ++ rest) := by
  rw [readMembers, hskip]
  rfl

theorem readSomeMembers_newline_append (depth : Nat) :
    readSomeMembers calls (newline depth ++ chars) = readSomeMembers calls chars := by
  cases calls with
  | zero => rfl
  | succ calls => simp only [readSomeMembers, skipBlanks_newline_append]

/-- A member is read back in front of the others, as an item is. -/
theorem readSomeMembers_append (depth : Nat) (rest : List Char) (hvalue : ReadsBack value)
    (hmembers : ∀ other ∈ members, ReadsBack other.2)
    (hcalls : 3 * (quoted name ++ layOut (depth + 1) value ++ layOutMembers depth members).length ≤
      calls) :
    readSomeMembers calls (quoted name ++ ':' :: ' ' :: (layOut (depth + 1) value ++
      (layOutMembers depth members ++ rest))) = some ((name, value) :: members, rest) := by
  induction members generalizing name value calls with
  | nil =>
    simp only [layOutMembers, newline, List.length_append, List.length_cons] at hcalls
    rw [layOutMembers, List.append_assoc, List.singleton_append]
    obtain ⟨calls, rfl⟩ := Nat.exists_eq_add_of_le' (show 1 ≤ calls by omega)
    exact readSomeMembers_close (by omega)
      (hvalue (depth + 1) calls _ (endsNumber_cons rfl _) (by omega))
      (skipBlanks_newline_cons rfl depth rest)
  | cons next members ih =>
    obtain ⟨hnext, hlater⟩ := List.forall_mem_cons.mp hmembers
    simp only [layOutMembers, List.length_append, List.length_cons] at hcalls
    simp only [layOutMembers, List.append_assoc, List.cons_append, List.nil_append]
    obtain ⟨calls, rfl⟩ := Nat.exists_eq_add_of_le' (show 1 ≤ calls by omega)
    have hfuel : 3 * (quoted next.1 ++ layOut (depth + 1) next.2 ++
        layOutMembers depth members).length ≤ calls := by
      simp only [List.length_append]
      omega
    have hothers := ih hnext hlater hfuel
    rw [← readSomeMembers_newline_append (depth + 1)] at hothers
    exact readSomeMembers_comma (by omega)
      (hvalue (depth + 1) calls _ (endsNumber_cons rfl _) (by omega))
      (skipBlanks_cons rfl _) hothers

theorem readsBack_object (h : ∀ member ∈ members, ReadsBack member.2) :
    ReadsBack (.object members) := by
  intro depth calls rest hrest hcalls
  cases members with
  | nil =>
    simp only [layOut, List.length_cons, List.length_nil] at hcalls
    obtain ⟨calls, rfl⟩ := Nat.exists_eq_add_of_le' (show 2 ≤ calls by omega)
    rfl
  | cons member members =>
    obtain ⟨hmember, hmembers⟩ := List.forall_mem_cons.mp h
    rw [layOut] at hcalls ⊢
    simp only [List.length_append, List.length_cons] at hcalls
    obtain ⟨calls, rfl⟩ := Nat.exists_eq_add_of_le' (show 2 ≤ calls by omega)
    have hfuel : 3 * (quoted member.1 ++ layOut (depth + 1) member.2 ++
        layOutMembers depth members).length ≤ calls := by
      simp only [List.length_append]
      omega
    have hread := readSomeMembers_append depth rest hmember hmembers hfuel
    rw [List.cons_append, readValue, skipBlanks_cons rfl]
    simp only [List.append_assoc, List.cons_append, List.nil_append]
    rw [readMembers_quoted (by rw [skipBlanks_newline_append, skipBlanks_quoted_append]), hread,
      Option.map_some]

end Members

/-! ### Documents -/

/-- A value whose numbers are numbers is read back from its text. -/
theorem readValue_layOut {value : Json} (h : Written value) : ReadsBack value := by
  induction h with
  | null => exact readsBack_null
  | number h => exact readsBack_number h
  | string text => exact readsBack_string text
  | array h ih => exact readsBack_array h ih
  | object h ih => exact readsBack_object ih

/-- A document is read back, blanks behind it or none. -/
theorem parse?_pretty_append {value : Json} (h : Written value) {blanks : String}
    (hblanks : ∀ c ∈ blanks.toList, isBlank c = true) :
    parse? (value.pretty ++ blanks) = some value := by
  have htext : (value.pretty ++ blanks).toList = layOut 0 value ++ blanks.toList := by
    rw [String.toList_append, pretty, String.toList_ofList]
  have hends : EndsNumber blanks.toList := by
    intro c hc
    rw [← Bool.not_eq_true]
    intro hnumber
    have hblank := hblanks c (List.mem_of_mem_head? hc)
    rw [isBlank_of_isNumberChar hnumber] at hblank
    cases hblank
  have hskip : skipBlanks blanks.toList = [] := by
    rw [← List.append_nil blanks.toList]
    exact List.dropWhile_append_of_pos hblanks
  have hread := readValue_layOut h 0 (3 * (value.pretty ++ blanks).length + 3) blanks.toList hends
    (by rw [← String.length_toList, htext, List.length_append]; omega)
  rw [parse?, htext, hread]
  simp [hskip]

end CacheCheck.Json
