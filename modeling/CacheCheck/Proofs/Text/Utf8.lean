import CacheCheck.Text.Utf8

/-!
Reading undoes writing. The bytes of a character are one piece of any sequence that begins with
them (`next_utf8EncodeChar`), so a text that was encoded is read back as it was, by the strict
reader and by the lenient one. In the other direction, a piece that is read as a character is the
bytes of that character (`eq_append_of_next`); so the strict reader reads encoded texts and nothing
else (`decode?_eq_some_iff`).

Bytes below 128 stand for the characters of the same number and appear nowhere else
(`toNat_of_mem_utf8EncodeChar`), so a separator of that kind can be looked for in the bytes.
-/

set_option autoImplicit false

namespace CacheCheck.Utf8

/-! ### Lead bytes and the bytes that follow -/

theorem toNat_ofNat {n : Nat} (h : n < 256) : (UInt8.ofNat n).toNat = n := by
  rw [UInt8.toNat_ofNat']
  exact Nat.mod_eq_of_lt h

theorem follow_cons {more low high bits : Nat} {n : Nat} (rest : List UInt8)
    (hbyte : n < 256) (hlow : low ≤ n) (hhigh : n ≤ high) :
    follow (more + 1) low high bits (UInt8.ofNat n :: rest) =
      follow more 0x80 0xBF (bits * 64 + n % 64) rest := by
  rw [follow, toNat_ofNat hbyte, if_pos ⟨hlow, hhigh⟩]

theorem lead?_of_lt_80 {n : Nat} (h : n < 0x80) : lead? n = some ⟨0, n, 0x80, 0xBF⟩ := by
  simp [lead?, h]

theorem lead?_two {n : Nat} (hlow : 0xC2 ≤ n) (hhigh : n < 0xE0) :
    lead? n = some ⟨1, n - 0xC0, 0x80, 0xBF⟩ := by
  rw [lead?, if_neg (by omega), if_neg (by omega), if_pos hhigh]

/-- A lead byte of three, with the range of the byte behind it. -/
theorem lead?_three {n : Nat} (hlow : 0xE0 ≤ n) (hhigh : n < 0xF0) :
    lead? n = some ⟨2, n - 0xE0, if n = 0xE0 then 0xA0 else 0x80,
      if n = 0xED then 0x9F else 0xBF⟩ := by
  rw [lead?, if_neg (by omega), if_neg (by omega), if_neg (by omega)]
  by_cases hfirst : n = 0xE0
  · subst hfirst
    rfl
  · by_cases hsurrogate : n = 0xED
    · subst hsurrogate
      rfl
    · simp [hfirst, hsurrogate, hhigh]

/-- A lead byte of four, with the range of the byte behind it. -/
theorem lead?_four {n : Nat} (hlow : 0xF0 ≤ n) (hhigh : n ≤ 0xF4) :
    lead? n = some ⟨3, n - 0xF0, if n = 0xF0 then 0x90 else 0x80,
      if n = 0xF4 then 0x8F else 0xBF⟩ := by
  rw [lead?, if_neg (by omega), if_neg (by omega), if_neg (by omega), if_neg (by omega),
    if_neg (by omega), if_neg (by omega)]
  by_cases hfirst : n = 0xF0
  · subst hfirst
    rfl
  · by_cases hlast : n = 0xF4
    · subst hlast
      rfl
    · simp [hfirst, hlast, show n < 0xF4 by omega]

/-! ### One character -/

/-- The number of a character is below the surrogates, or above them and below the limit. -/
theorem toNat_valid (c : Char) : c.toNat < 0xD800 ∨ 0xDFFF < c.toNat ∧ c.toNat < 0x110000 :=
  c.valid

theorem next_utf8EncodeChar (c : Char) :
    ∃ b more, String.utf8EncodeChar c = b :: more ∧
      ∀ rest, next b (more ++ rest) = (some c, rest) := by
  have hvalid := toNat_valid c
  have hchar : Char.ofNat c.toNat = c := Char.ofNat_toNat c
  have hval : c.val.toNat = c.toNat := rfl
  unfold String.utf8EncodeChar
  simp only [hval]
  by_cases hone : c.toNat ≤ 0x7F
  · rw [if_pos hone]
    refine ⟨_, _, rfl, fun rest ↦ ?_⟩
    rw [next, toNat_ofNat (by omega), lead?_of_lt_80 (by omega)]
    simp only [List.nil_append, follow, hchar]
  rw [if_neg hone]
  by_cases htwo : c.toNat ≤ 0x7FF
  · rw [if_pos htwo]
    refine ⟨_, _, rfl, fun rest ↦ ?_⟩
    rw [next, toNat_ofNat (by omega), lead?_two (by omega) (by omega)]
    simp only [List.cons_append, List.nil_append]
    rw [follow_cons rest (by omega) (by omega) (by omega), follow]
    have hbits : (c.toNat / 64 % 0x20 + 0xC0 - 0xC0) * 64 + (c.toNat % 0x40 + 0x80) % 64 =
        c.toNat := by omega
    rw [hbits, hchar]
  rw [if_neg htwo]
  by_cases hthree : c.toNat ≤ 0xFFFF
  · rw [if_pos hthree]
    refine ⟨_, _, rfl, fun rest ↦ ?_⟩
    rw [next, toNat_ofNat (by omega), lead?_three (by omega) (by omega)]
    simp only [List.cons_append, List.nil_append]
    rw [follow_cons _ (by omega) (by split <;> omega) (by split <;> omega),
      follow_cons rest (by omega) (by omega) (by omega), follow]
    have hbits : ((c.toNat / 4096 % 0x10 + 0xE0 - 0xE0) * 64 +
        (c.toNat / 64 % 0x40 + 0x80) % 64) * 64 + (c.toNat % 0x40 + 0x80) % 64 = c.toNat := by
      omega
    rw [hbits, hchar]
  rw [if_neg hthree]
  refine ⟨_, _, rfl, fun rest ↦ ?_⟩
  rw [next, toNat_ofNat (by omega), lead?_four (by omega) (by omega)]
  simp only [List.cons_append, List.nil_append]
  rw [follow_cons _ (by omega) (by split <;> omega) (by split <;> omega),
    follow_cons _ (by omega) (by omega) (by omega),
    follow_cons rest (by omega) (by omega) (by omega), follow]
  have hbits : (((c.toNat / 262144 % 0x08 + 0xF0 - 0xF0) * 64 +
      (c.toNat / 4096 % 0x40 + 0x80) % 64) * 64 + (c.toNat / 64 % 0x40 + 0x80) % 64) * 64 +
        (c.toNat % 0x40 + 0x80) % 64 = c.toNat := by
    omega
  rw [hbits, hchar]

/-- The bytes of a character show where they end. -/
theorem utf8EncodeChar_append_inj {c c' : Char} {rest rest' : List UInt8}
    (h : String.utf8EncodeChar c ++ rest = String.utf8EncodeChar c' ++ rest') :
    c = c' ∧ rest = rest' := by
  obtain ⟨b, more, hbytes, hnext⟩ := next_utf8EncodeChar c
  obtain ⟨b', more', hbytes', hnext'⟩ := next_utf8EncodeChar c'
  rw [hbytes, hbytes', List.cons_append, List.cons_append] at h
  obtain ⟨rfl, hmore⟩ := List.cons.inj h
  have hread := hnext rest
  rw [hmore, hnext'] at hread
  obtain ⟨hchar, hrest⟩ := Prod.mk.inj hread
  exact ⟨(Option.some.inj hchar).symm, hrest.symm⟩

/-- A byte below 128 is a character of its own. -/
theorem toNat_of_mem_utf8EncodeChar {c : Char} {b : UInt8} (hmem : b ∈ String.utf8EncodeChar c)
    (hb : b.toNat < 0x80) : c.toNat = b.toNat := by
  have hvalid := toNat_valid c
  have hval : c.val.toNat = c.toNat := rfl
  unfold String.utf8EncodeChar at hmem
  simp only [hval] at hmem
  have hnot {n : Nat} (h : b = UInt8.ofNat n) (hlow : 0x80 ≤ n) (hhigh : n < 256) : False := by
    rw [h, toNat_ofNat hhigh] at hb
    omega
  split at hmem
  · rw [List.mem_singleton.mp hmem, toNat_ofNat (by omega)]
  split at hmem
  · simp only [List.mem_cons, List.not_mem_nil, or_false] at hmem
    rcases hmem with h | h <;> exact (hnot h (by omega) (by omega)).elim
  split at hmem
  · simp only [List.mem_cons, List.not_mem_nil, or_false] at hmem
    rcases hmem with h | h | h <;> exact (hnot h (by omega) (by omega)).elim
  · simp only [List.mem_cons, List.not_mem_nil, or_false] at hmem
    rcases hmem with h | h | h | h <;> exact (hnot h (by omega) (by omega)).elim

/-! ### Bytes that are read as a character -/

theorem exists_of_follow {more low high bits : Nat} {bytes rest : List UInt8} {c : Char}
    (h : follow (more + 1) low high bits bytes = (some c, rest)) :
    ∃ b left, bytes = b :: left ∧ low ≤ b.toNat ∧ b.toNat ≤ high ∧
      follow more 0x80 0xBF (bits * 64 + b.toNat % 64) left = (some c, rest) := by
  cases bytes with
  | nil => cases h
  | cons b left =>
    rw [follow] at h
    split at h
    · next hrange => exact ⟨b, left, rfl, hrange.1, hrange.2, h⟩
    · cases h

theorem val_ofNat {n : Nat} (h : n.isValidChar) : (Char.ofNat n).val.toNat = n := by
  rw [Char.ofNat, dif_pos h]
  exact UInt32.toNat_ofNatLT ..

theorem ofNat_eq_of_eq_toNat {n : Nat} {b : UInt8} (h : n = b.toNat) : UInt8.ofNat n = b := by
  rw [h, UInt8.ofNat_toNat]

/-- The bits of one to four bytes are a character that has these bytes. -/
theorem utf8EncodeChar_one {b : UInt8} (h : b.toNat < 0x80) :
    String.utf8EncodeChar (Char.ofNat b.toNat) = [b] := by
  rw [String.utf8EncodeChar, val_ofNat (.inl (by omega))]
  simp only [if_pos (show b.toNat ≤ 0x7F by omega), UInt8.ofNat_toNat]

@[inherit_doc utf8EncodeChar_one]
theorem utf8EncodeChar_two {b b₁ : UInt8} (hlow : 0xC2 ≤ b.toNat) (hhigh : b.toNat < 0xE0)
    (hlow₁ : 0x80 ≤ b₁.toNat) (hhigh₁ : b₁.toNat ≤ 0xBF) :
    String.utf8EncodeChar (Char.ofNat ((b.toNat - 0xC0) * 64 + b₁.toNat % 64)) = [b, b₁] := by
  rw [String.utf8EncodeChar, val_ofNat (.inl (by omega))]
  rw [if_neg (by omega), if_pos (by omega), ofNat_eq_of_eq_toNat (b := b) (by omega),
    ofNat_eq_of_eq_toNat (b := b₁) (by omega)]

@[inherit_doc utf8EncodeChar_one]
theorem utf8EncodeChar_three {b b₁ b₂ : UInt8} (hlow : 0xE0 ≤ b.toNat) (hhigh : b.toNat < 0xF0)
    (hlow₁ : (if b.toNat = 0xE0 then 0xA0 else 0x80) ≤ b₁.toNat)
    (hhigh₁ : b₁.toNat ≤ if b.toNat = 0xED then 0x9F else 0xBF)
    (hlow₂ : 0x80 ≤ b₂.toNat) (hhigh₂ : b₂.toNat ≤ 0xBF) :
    String.utf8EncodeChar
        (Char.ofNat (((b.toNat - 0xE0) * 64 + b₁.toNat % 64) * 64 + b₂.toNat % 64)) =
      [b, b₁, b₂] := by
  have hrange : (b.toNat = 0xE0 → 0xA0 ≤ b₁.toNat) ∧ (b.toNat = 0xED → b₁.toNat ≤ 0x9F) ∧
      0x80 ≤ b₁.toNat ∧ b₁.toNat ≤ 0xBF := by
    split at hlow₁ <;> split at hhigh₁ <;> omega
  rw [String.utf8EncodeChar, val_ofNat (by unfold Nat.isValidChar; omega)]
  rw [if_neg (by omega), if_neg (by omega), if_pos (by omega),
    ofNat_eq_of_eq_toNat (b := b) (by omega), ofNat_eq_of_eq_toNat (b := b₁) (by omega),
    ofNat_eq_of_eq_toNat (b := b₂) (by omega)]

@[inherit_doc utf8EncodeChar_one]
theorem utf8EncodeChar_four {b b₁ b₂ b₃ : UInt8} (hlow : 0xF0 ≤ b.toNat) (hhigh : b.toNat ≤ 0xF4)
    (hlow₁ : (if b.toNat = 0xF0 then 0x90 else 0x80) ≤ b₁.toNat)
    (hhigh₁ : b₁.toNat ≤ if b.toNat = 0xF4 then 0x8F else 0xBF)
    (hlow₂ : 0x80 ≤ b₂.toNat) (hhigh₂ : b₂.toNat ≤ 0xBF)
    (hlow₃ : 0x80 ≤ b₃.toNat) (hhigh₃ : b₃.toNat ≤ 0xBF) :
    String.utf8EncodeChar (Char.ofNat
        ((((b.toNat - 0xF0) * 64 + b₁.toNat % 64) * 64 + b₂.toNat % 64) * 64 + b₃.toNat % 64)) =
      [b, b₁, b₂, b₃] := by
  have hrange : (b.toNat = 0xF0 → 0x90 ≤ b₁.toNat) ∧ (b.toNat = 0xF4 → b₁.toNat ≤ 0x8F) ∧
      0x80 ≤ b₁.toNat ∧ b₁.toNat ≤ 0xBF := by
    split at hlow₁ <;> split at hhigh₁ <;> omega
  rw [String.utf8EncodeChar, val_ofNat (by unfold Nat.isValidChar; omega)]
  rw [if_neg (by omega), if_neg (by omega), if_neg (by omega),
    ofNat_eq_of_eq_toNat (b := b) (by omega), ofNat_eq_of_eq_toNat (b := b₁) (by omega),
    ofNat_eq_of_eq_toNat (b := b₂) (by omega), ofNat_eq_of_eq_toNat (b := b₃) (by omega)]

theorem lead?_of_F4_lt {n : Nat} (h : 0xF4 < n) : lead? n = none := by
  rw [lead?, if_neg (by omega), if_neg (by omega), if_neg (by omega), if_neg (by omega),
    if_neg (by omega), if_neg (by omega), if_neg (by omega), if_neg (by omega), if_neg (by omega)]

/-- What is read as a character is the bytes of that character. -/
theorem eq_append_of_next {b : UInt8} {bytes rest : List UInt8} {c : Char}
    (h : next b bytes = (some c, rest)) : b :: bytes = String.utf8EncodeChar c ++ rest := by
  unfold next at h
  by_cases hone : b.toNat < 0x80
  · rw [lead?_of_lt_80 hone] at h
    cases h
    rw [utf8EncodeChar_one hone]
    rfl
  by_cases hgap : b.toNat < 0xC2
  · rw [lead?, if_neg hone, if_pos hgap] at h
    cases h
  by_cases htwo : b.toNat < 0xE0
  · rw [lead?_two (by omega) htwo] at h
    obtain ⟨b₁, left, rfl, hlow₁, hhigh₁, h⟩ := exists_of_follow h
    cases h
    rw [utf8EncodeChar_two (by omega) htwo hlow₁ hhigh₁]
    rfl
  by_cases hthree : b.toNat < 0xF0
  · rw [lead?_three (by omega) hthree] at h
    obtain ⟨b₁, left₁, rfl, hlow₁, hhigh₁, h⟩ := exists_of_follow h
    obtain ⟨b₂, left, rfl, hlow₂, hhigh₂, h⟩ := exists_of_follow h
    cases h
    rw [utf8EncodeChar_three (by omega) hthree hlow₁ hhigh₁ hlow₂ hhigh₂]
    rfl
  by_cases hfour : b.toNat ≤ 0xF4
  · rw [lead?_four (by omega) hfour] at h
    obtain ⟨b₁, left₁, rfl, hlow₁, hhigh₁, h⟩ := exists_of_follow h
    obtain ⟨b₂, left₂, rfl, hlow₂, hhigh₂, h⟩ := exists_of_follow h
    obtain ⟨b₃, left, rfl, hlow₃, hhigh₃, h⟩ := exists_of_follow h
    cases h
    rw [utf8EncodeChar_four (by omega) hfour hlow₁ hhigh₁ hlow₂ hhigh₂ hlow₃ hhigh₃]
    rfl
  · rw [lead?_of_F4_lt (by omega)] at h
    cases h

/-! ### Texts -/

theorem pieces_utf8EncodeChar_append (c : Char) (rest : List UInt8) :
    pieces (String.utf8EncodeChar c ++ rest) = some c :: pieces rest := by
  obtain ⟨b, more, hbytes, hnext⟩ := next_utf8EncodeChar c
  rw [hbytes, List.cons_append, pieces, hnext]

theorem pieces_encode (s : String) : pieces (encode s) = s.toList.map some := by
  unfold encode
  induction s.toList with
  | nil => rw [List.flatMap_nil, pieces, List.map_nil]
  | cons c rest ih => rw [List.flatMap_cons, pieces_utf8EncodeChar_append, ih, List.map_cons]

@[simp] theorem decode?_encode (s : String) : decode? (encode s) = some s := by
  have hall (chars : List Char) : (chars.map some).mapM id = some chars := by
    induction chars with
    | nil => rfl
    | cons c rest ih => simp [List.mapM_cons, ih]
  rw [decode?, pieces_encode, hall, Option.map_some, String.ofList_toList]

theorem eq_flatMap_of_pieces {bytes : List UInt8} {chars : List Char}
    (h : pieces bytes = chars.map some) : bytes = chars.flatMap String.utf8EncodeChar := by
  induction chars generalizing bytes with
  | nil =>
    cases bytes with
    | nil => rfl
    | cons b rest =>
      rw [pieces] at h
      cases h
  | cons c chars ih =>
    cases bytes with
    | nil =>
      rw [pieces] at h
      cases h
    | cons b rest =>
      rw [pieces, List.map_cons] at h
      obtain ⟨hfirst, hrest⟩ := List.cons.inj h
      have hread : next b rest = (some c, (next b rest).2) := Prod.ext hfirst rfl
      rw [eq_append_of_next hread, List.flatMap_cons, ← ih hrest]

theorem eq_map_some_of_mapM {α : Type} {found : List (Option α)} {all : List α}
    (h : found.mapM id = some all) : found = all.map some := by
  induction found generalizing all with
  | nil =>
    cases h
    rfl
  | cons first rest ih =>
    rw [List.mapM_cons] at h
    obtain ⟨a, hfirst, h⟩ := Option.bind_eq_some_iff.mp h
    obtain ⟨others, hothers, h⟩ := Option.bind_eq_some_iff.mp h
    cases h
    rw [List.map_cons, ← ih hothers]
    exact congrArg (· :: rest) hfirst

/-- Bytes are read as a text when they are the bytes of that text, and not otherwise. -/
theorem decode?_eq_some_iff {bytes : List UInt8} {s : String} :
    decode? bytes = some s ↔ bytes = encode s := by
  constructor
  · intro h
    obtain ⟨chars, hchars, rfl⟩ := Option.map_eq_some_iff.mp h
    rw [encode, String.toList_ofList]
    exact eq_flatMap_of_pieces (eq_map_some_of_mapM hchars)
  · rintro rfl
    exact decode?_encode s

@[simp] theorem decodeLossy_encode (s : String) : decodeLossy (encode s) = s := by
  rw [decodeLossy, pieces_encode, List.map_map]
  have hid : (fun piece : Option Char ↦ piece.getD replacement) ∘ some = id := rfl
  rw [hid, List.map_id, String.ofList_toList]

/-- A character below 128 whose byte occurs in an encoded text occurs in the text. -/
theorem exists_mem_of_mem_encode {s : String} {b : UInt8} (hmem : b ∈ encode s)
    (hb : b.toNat < 0x80) : ∃ c ∈ s.toList, c.toNat = b.toNat := by
  obtain ⟨c, hc, hbytes⟩ := List.mem_flatMap.mp hmem
  exact ⟨c, hc, toNat_of_mem_utf8EncodeChar hbytes hb⟩

end CacheCheck.Utf8
