import CacheCheck.Proofs.Steps
import CacheCheck.Proofs.Url.Parts

/-!
The query of a URL that is read. User name, host and port are taken off one after the other, and
none of them has one of the two marks in it that end a path (`Skips`). So the query that is found is
the one behind the first question mark in front of the first number sign, once the text is cleaned
(`query_of_parse`).

Cleaning drops what is around a URL and the tabs and line ends in it. It works on both sides of a
character that is neither apart (`clean_append_cons`), so it changes no mark and nothing behind one
that was clean.
-/

set_option autoImplicit false

namespace CacheCheck.Url

/-! ### On the way to the query -/

/-- What is taken off the front has no mark in it. -/
def Skips (chars rest : List Char) : Prop :=
  ∃ front, chars = front ++ rest ∧ ∀ c ∈ front, isQueryOrFragment c = false

theorem Skips.refl (chars : List Char) : Skips chars chars :=
  ⟨[], rfl, by simp⟩

theorem Skips.trans {chars middle rest : List Char} (h : Skips chars middle)
    (hrest : Skips middle rest) : Skips chars rest := by
  obtain ⟨front, rfl, hfront⟩ := h
  obtain ⟨more, rfl, hmore⟩ := hrest
  refine ⟨front ++ more, (List.append_assoc ..).symm, fun c hc ↦ ?_⟩
  exact (List.mem_append.mp hc).elim (hfront c) (hmore c)

theorem Skips.cons {c : Char} {chars rest : List Char} (hc : isQueryOrFragment c = false)
    (h : Skips chars rest) : Skips (c :: chars) rest := by
  obtain ⟨front, rfl, hfront⟩ := h
  exact ⟨c :: front, rfl, List.forall_mem_cons.mpr ⟨hc, hfront⟩⟩

theorem skips_dropWhile {kind : Char → Bool}
    (hkind : ∀ c, kind c = true → isQueryOrFragment c = false) (chars : List Char) :
    Skips chars (chars.dropWhile kind) :=
  ⟨chars.takeWhile kind, List.takeWhile_append_dropWhile.symm,
    fun c hc ↦ hkind c (List.all_eq_true.mp List.all_takeWhile c hc)⟩

theorem isQueryOrFragment_of_endsAuthority {web : Bool} {c : Char}
    (h : endsAuthority web c = false) : isQueryOrFragment c = false := by
  simp_all [endsAuthority, isQueryOrFragment]

theorem eq_of_splitLastAt? {chars info after : List Char}
    (h : splitLastAt? chars = some (info, after)) : chars = info ++ '@' :: after := by
  have hchars : chars.reverse.takeWhile (· ≠ '@') ++ chars.reverse.dropWhile (· ≠ '@') =
      chars.reverse := List.takeWhile_append_dropWhile
  have hmark := List.head?_dropWhile_not (· ≠ '@') chars.reverse
  unfold splitLastAt? at h
  split at h
  · cases h
  · next mark before hbehind =>
    cases h
    rw [hbehind] at hchars hmark
    have hat : mark = '@' := by simpa using hmark
    have hreverse := congrArg List.reverse hchars
    rw [hat, List.reverse_append, List.reverse_cons, List.append_assoc,
      List.reverse_reverse] at hreverse
    exact hreverse.symm

theorem skips_userinfo {web : Bool} {chars rest : List Char} {info : String × Option String}
    (h : userinfo web chars = .ok (info, rest)) : Skips chars rest := by
  obtain ⟨authority, hchars, hauthority⟩ : Skips chars (chars.dropWhile (!endsAuthority web ·)) :=
    skips_dropWhile (fun c hc ↦ isQueryOrFragment_of_endsAuthority (by simpa using hc)) chars
  have htake : chars.takeWhile (!endsAuthority web ·) = authority := by
    refine List.append_cancel_right (List.takeWhile_append_dropWhile.trans ?_)
    exact hchars
  unfold userinfo at h
  simp only [htake] at h
  generalize chars.dropWhile (!endsAuthority web ·) = behind at h hchars
  split at h
  · cases h
    exact .refl _
  · split at h <;> cases h
    next hnil =>
    rw [List.isEmpty_iff.mp hnil] at hchars
    exact ⟨authority, hchars, hauthority⟩
  · next name after _ hsplit =>
    cases h
    rw [eq_of_splitLastAt? hsplit] at hchars hauthority
    refine ⟨name ++ ['@'], ?_, fun c hc ↦ hauthority c ?_⟩
    · rw [hchars]
      simp
    · rw [← List.singleton_append, ← List.append_assoc]
      exact List.mem_append_left _ hc

theorem skips_hostSpan (web inside : Bool) (chars : List Char) :
    Skips chars (hostSpan web inside chars).2 := by
  fun_induction hostSpan web inside chars with
  | case1 => exact .refl _
  | case2 => exact .refl _
  | case3 inside c rest hends host after hrest ih =>
    have hc : endsAuthority web c = false := by
      rw [Bool.or_eq_true, not_or] at hends
      exact Bool.eq_false_iff.mpr hends.1
    rw [hrest] at ih
    exact .cons (isQueryOrFragment_of_endsAuthority hc) ih

theorem skips_portDigits {port found : Option Nat} {chars rest : List Char}
    (h : portDigits port chars = .ok (found, rest)) : Skips chars rest := by
  induction chars generalizing port with
  | nil =>
    cases h
    exact .refl _
  | cons c chars ih =>
    unfold portDigits at h
    split at h
    · next hdigit =>
      dsimp only at h
      split at h
      · refine .cons ?_ (ih h)
        have hmarks : c ≠ '?' ∧ c ≠ '#' := by
          constructor <;> rintro rfl <;> cases hdigit
        simp [isQueryOrFragment, hmarks]
      · cases h
    · split at h <;> cases h
      exact .refl _

theorem skips_portAfter {found : Option Nat} {chars rest : List Char}
    (h : portAfter chars = .ok (found, rest)) : Skips chars rest := by
  unfold portAfter at h
  split at h
  · exact .cons rfl (skips_portDigits h)
  · cases h
    exact .refl _

theorem skips_scheme? {chars rest : List Char} {scheme : String}
    (h : scheme? chars = some (scheme, rest)) : Skips chars rest := by
  have hskips : Skips chars (chars.dropWhile isSchemeChar) := by
    refine skips_dropWhile (fun c hc ↦ ?_) chars
    have hmarks : c ≠ '?' ∧ c ≠ '#' := by
      constructor <;> rintro rfl <;> cases hc
    simp [isQueryOrFragment, hmarks]
  unfold scheme? at h
  split at h
  · split at h
    · cases h
    · split at h <;> cases h
      next hcolon =>
      rw [hcolon] at hskips
      exact hskips.trans (.cons rfl (.refl _))
  · cases h

/-- What is behind the first of the marks. -/
def queryIn (chars : List Char) : Option String :=
  queryOf (chars.dropWhile (!isQueryOrFragment ·))

theorem Skips.queryIn_eq {chars rest : List Char} (h : Skips chars rest) :
    queryIn chars = queryIn rest := by
  obtain ⟨front, rfl, hfront⟩ := h
  rw [queryIn, List.dropWhile_append_of_pos]
  · rfl
  · intro c hc
    rw [hfront c hc]
    rfl

theorem query_of_withAuthority {scheme : String} {web : Bool} {chars : List Char} {url : Url}
    (h : withAuthority scheme web chars = .ok url) : url.query = queryIn chars := by
  unfold withAuthority at h
  obtain ⟨⟨⟨username, password⟩, behind⟩, huser, h⟩ := bind_eq_ok_iff.mp h
  dsimp only at h
  -- Hosts of the web and others are read by different functions, with one continuation.
  split at h
  all_goals
    obtain ⟨host, -, h⟩ := bind_eq_ok_iff.mp h
    split at h
    · cases h
    · obtain ⟨⟨port, rest⟩, hport, h⟩ := bind_eq_ok_iff.mp h
      split at h <;> cases h
      have hskips := (skips_userinfo huser).trans
        ((skips_hostSpan web false behind).trans (skips_portAfter hport))
      exact hskips.queryIn_eq.symm

/-- The query of a URL that is read is behind the first of the marks. -/
theorem queryIn_of_parse {text : String} {url : Url} (h : parse text = .ok url) :
    url.query = queryIn (clean text.toList) := by
  unfold parse at h
  split at h
  · cases h
  · next scheme rest hscheme =>
    rw [(skips_scheme? hscheme).queryIn_eq]
    split at h
    · rw [query_of_withAuthority h]
      refine (skips_dropWhile (fun c hc ↦ ?_) rest).queryIn_eq.symm
      rcases (by simpa using hc : c = '/' ∨ c = '\\') with rfl | rfl <;> rfl
    · split at h
      · rw [query_of_withAuthority h]
        exact (Skips.cons rfl (.cons rfl (.refl _))).queryIn_eq.symm
      · cases h
        rfl

theorem cut_fst (mark : Char) (text : List Char) :
    (cut mark text).1 = text.takeWhile (· ≠ mark) := by
  induction text with
  | nil => rfl
  | cons c rest ih => by_cases hc : c = mark <;> simp [cut, hc, ih]

/-- The query of a URL that is read is the one that its marks show, once it is cleaned. -/
theorem queryIn_eq (chars : List Char) :
    queryIn chars = (partsOf chars).query.map String.ofList := by
  change queryIn chars = (cut '?' (cut '#' chars).1).2.map String.ofList
  induction chars with
  | nil => rfl
  | cons c rest ih =>
    by_cases hnumber : c = '#'
    · subst hnumber
      rfl
    by_cases hquestion : c = '?'
    · subst hquestion
      simp [queryIn, isQueryOrFragment, queryOf, cut, cut_fst]
    · have hskips : Skips (c :: rest) rest :=
        .cons (by simp [isQueryOrFragment, hnumber, hquestion]) (.refl _)
      rw [hskips.queryIn_eq, ih, cut, if_neg hnumber, cut, if_neg hquestion]

theorem query_of_parse {text : String} {url : Url} (h : parse text = .ok url) :
    url.query = (partsOf (clean text.toList)).query.map String.ofList := by
  rw [queryIn_of_parse h, queryIn_eq]

/-! ### Cleaned texts -/

theorem dropWhile_append_cons {α : Type} {kind : α → Bool} {item : α} (h : kind item = false)
    (front behind : List α) :
    (front ++ item :: behind).dropWhile kind = front.dropWhile kind ++ item :: behind := by
  induction front with
  | nil => rw [List.nil_append, List.dropWhile_cons, h]; rfl
  | cons c front ih => by_cases hc : kind c = true <;> simp_all

/-- Whether a character is kept inside a URL. -/
def stays (c : Char) : Bool :=
  c ≠ '\t' && c ≠ '\n' && c ≠ '\r'

theorem stays_of_not_isEdge {c : Char} (h : isEdge c = false) : stays c = true := by
  have hother : c ≠ '\t' ∧ c ≠ '\n' ∧ c ≠ '\r' := by
    refine ⟨?_, ?_, ?_⟩ <;> rintro rfl <;> cases h
  simp [stays, hother]

/-- What is kept of a text that something follows. -/
def cleanFront (chars : List Char) : List Char :=
  (chars.dropWhile isEdge).filter stays

/-- What is kept of a text that something is in front of. -/
def cleanBehind (chars : List Char) : List Char :=
  (chars.reverse.dropWhile isEdge).reverse.filter stays

/-- Texts around a character that is no edge are cleaned apart. -/
theorem clean_append_cons {c : Char} (hc : isEdge c = false) (front behind : List Char) :
    clean (front ++ c :: behind) = cleanFront front ++ c :: cleanBehind behind := by
  have hreverse : (front.dropWhile isEdge ++ c :: behind).reverse =
      behind.reverse ++ c :: (front.dropWhile isEdge).reverse := by simp
  change (((front ++ c :: behind).dropWhile isEdge).reverse.dropWhile isEdge).reverse.filter stays =
    _
  rw [dropWhile_append_cons hc, hreverse, dropWhile_append_cons hc]
  simp [cleanFront, cleanBehind, stays_of_not_isEdge hc]

theorem mem_cleanFront {c : Char} (hc : isEdge c = false) {chars : List Char} :
    c ∈ cleanFront chars ↔ c ∈ chars := by
  have hstays := stays_of_not_isEdge hc
  have hdrop : c ∈ chars.dropWhile isEdge ↔ c ∈ chars := by
    refine ⟨(List.dropWhile_sublist isEdge).mem, fun hmem ↦ ?_⟩
    obtain ⟨front, behind, rfl⟩ := List.append_of_mem hmem
    rw [dropWhile_append_cons hc]
    exact List.mem_append_right _ List.mem_cons_self
  rw [cleanFront, List.mem_filter, hdrop, and_iff_left hstays]

end CacheCheck.Url
