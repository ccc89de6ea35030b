import CacheCheck.Url

/-!
The parts of a URL, told apart by its marks alone. The fragment is behind the first number sign, the
query is behind the first question mark in front of that, and what is in front of both is a scheme,
an authority and a path.

Characters at the end of a URL belong to its last part. So what is added there is part of the
fragment where there is one (`partsOf_append_of_mem`), and a pair that is added behind the right
mark is the last pair of the query where there is none (`partsOf_extend`, `pairs_extend`).

A URL has a scheme and an authority in front of its path. Whether an address is one is not decided
by that, but a URL is never taken for a bare address (`hasScheme_of_isFull`), and neither is a bare
address that was given a scheme (`withScheme_withScheme`).
-/

set_option autoImplicit false

namespace CacheCheck.Url

/-! ### Texts that are cut at a mark -/

/-- What is in front of the first of the marks, and what is behind it. -/
def cut (mark : Char) : List Char → List Char × Option (List Char)
  | [] => ([], none)
  | c :: rest =>
    if c = mark then ([], some rest) else (c :: (cut mark rest).1, (cut mark rest).2)

theorem cut_append_of_not_mem {mark : Char} {front : List Char} (h : mark ∉ front)
    (text : List Char) :
    cut mark (front ++ text) = (front ++ (cut mark text).1, (cut mark text).2) := by
  induction front with
  | nil => rfl
  | cons c front ih =>
    obtain ⟨hc, hfront⟩ := not_or.mp (mt List.mem_cons.mpr h)
    rw [List.cons_append, cut, if_neg (Ne.symm hc), ih hfront]
    rfl

theorem cut_of_not_mem {mark : Char} {text : List Char} (h : mark ∉ text) :
    cut mark text = (text, none) := by
  have hcut := cut_append_of_not_mem h []
  rwa [List.append_nil, cut, List.append_nil] at hcut

theorem cut_append_mark {mark : Char} {front : List Char} (h : mark ∉ front) (behind : List Char) :
    cut mark (front ++ mark :: behind) = (front, some behind) := by
  rw [cut_append_of_not_mem h, cut, if_pos rfl, List.append_nil]

theorem eq_of_cut {mark : Char} {text front behind : List Char}
    (h : cut mark text = (front, some behind)) : text = front ++ mark :: behind := by
  by_cases hmem : mark ∈ text
  · obtain ⟨first, rest, rfl, hfirst⟩ := List.eq_append_cons_of_mem hmem
    rw [cut_append_mark hfirst] at h
    cases h
    rfl
  · rw [cut_of_not_mem hmem] at h
    cases h

theorem cut_isPrefix (mark : Char) (text : List Char) : (cut mark text).1 <+: text := by
  by_cases hmem : mark ∈ text
  · obtain ⟨first, rest, rfl, hfirst⟩ := List.eq_append_cons_of_mem hmem
    rw [cut_append_mark hfirst]
    exact List.prefix_append first _
  · simp [cut_of_not_mem hmem]

/-! ### Parts -/

/-- A URL by its marks. -/
structure Parts where
  scheme : Option (List Char)
  authority : Option (List Char)
  path : List Char
  query : Option (List Char)
  fragment : Option (List Char)
  deriving DecidableEq, Repr

/-- The scheme is in front of the first colon, if there is something and no slash in it. -/
def schemeOf (chars : List Char) : Option (List Char) × List Char :=
  match cut ':' chars with
  | (c :: front, some rest) =>
    if '/' ∈ c :: front then (none, chars) else (some (c :: front), rest)
  | _ => (none, chars)

/-- The authority is between a double slash and the next slash. -/
def authorityOf (chars : List Char) : Option (List Char) × List Char :=
  match chars with
  | '/' :: '/' :: rest => (some (rest.takeWhile (· ≠ '/')), rest.dropWhile (· ≠ '/'))
  | _ => (none, chars)

/-- The parts of what is in front of a query and of a fragment, with these two. -/
def Parts.of (hierarchy : List Char) (query fragment : Option (List Char)) : Parts :=
  let (scheme, rest) := schemeOf hierarchy
  let (authority, path) := authorityOf rest
  { scheme, authority, path, query, fragment }

def partsOf (text : List Char) : Parts :=
  let (page, fragment) := cut '#' text
  let (hierarchy, query) := cut '?' page
  .of hierarchy query fragment

/-- The pairs of the query. -/
def Parts.pairs (parts : Parts) : List (List Char) :=
  ((parts.query.getD []).splitOn '&').filter (· ≠ [])

theorem fragment_of_not_mem {text : List Char} (h : '#' ∉ text) :
    (partsOf text).fragment = none := by
  simp only [partsOf, cut_of_not_mem h, Parts.of]

theorem partsOf_append_mark {page : List Char} (h : '#' ∉ page) (behind : List Char) :
    partsOf (page ++ '#' :: behind) = { partsOf page with fragment := some behind } := by
  simp only [partsOf, cut_append_mark h, cut_of_not_mem h, Parts.of]

/-- What is added to a URL with a fragment is part of the fragment. -/
theorem partsOf_append_of_mem {text : List Char} (h : '#' ∈ text) (more : List Char) :
    partsOf (text ++ more) =
      { partsOf text with fragment := (partsOf text).fragment.map (· ++ more) } := by
  obtain ⟨page, behind, rfl, hpage⟩ := List.eq_append_cons_of_mem h
  rw [List.append_assoc, List.cons_append, partsOf_append_mark hpage, partsOf_append_mark hpage]
  rfl

theorem partsOf_append_query {hierarchy query : List Char} (hmark : '?' ∉ hierarchy)
    (hhierarchy : '#' ∉ hierarchy) (hquery : '#' ∉ query) :
    partsOf (hierarchy ++ '?' :: query) = { partsOf hierarchy with query := some query } := by
  have hpage : '#' ∉ hierarchy ++ '?' :: query := by simp [hhierarchy, hquery]
  simp only [partsOf, cut_of_not_mem hpage, cut_append_mark hmark, cut_of_not_mem hhierarchy,
    cut_of_not_mem hmark, Parts.of]

/-- The mark in front of a further pair of a query. -/
def markFor (text : List Char) : Char :=
  if '?' ∈ text then '&' else '?'

/-- A query with a further pair. -/
def extended (query : Option (List Char)) (pair : List Char) : List Char :=
  match query with
  | none => pair
  | some query => query ++ '&' :: pair

/-- What is added to a URL without a fragment is part of the query. -/
theorem partsOf_extend {text pair : List Char} (htext : '#' ∉ text) (hpair : '#' ∉ pair) :
    partsOf (text ++ markFor text :: pair) =
      { partsOf text with query := some (extended (partsOf text).query pair) } := by
  by_cases hmark : '?' ∈ text
  · rw [markFor, if_pos hmark]
    obtain ⟨hierarchy, query, rfl, hfront⟩ := List.eq_append_cons_of_mem hmark
    have hhierarchy : '#' ∉ hierarchy := fun hmem ↦ htext (List.mem_append_left _ hmem)
    have hquery : '#' ∉ query := fun hmem ↦
      htext (List.mem_append_right _ (List.mem_cons_of_mem _ hmem))
    have hmore : '#' ∉ query ++ '&' :: pair := by simp [hquery, hpair]
    rw [List.append_assoc, List.cons_append, partsOf_append_query hfront hhierarchy hmore,
      partsOf_append_query hfront hhierarchy hquery]
    rfl
  · rw [markFor, if_neg hmark, partsOf_append_query hmark htext hpair]
    simp only [partsOf, cut_of_not_mem htext, cut_of_not_mem hmark, Parts.of, extended]

theorem pairs_fragment (parts : Parts) (fragment : Option (List Char)) :
    Parts.pairs { parts with fragment } = parts.pairs :=
  rfl

/-- A further pair is the last of the pairs. -/
theorem pairs_extend (parts : Parts) {pair : List Char} (hsome : pair ≠ []) (hpair : '&' ∉ pair) :
    Parts.pairs { parts with query := some (extended parts.query pair) } =
      parts.pairs ++ [pair] := by
  have hsingle : pair.splitOn '&' = [pair] := List.splitOn_eq_singleton hpair
  unfold Parts.pairs
  cases parts.query with
  | none => simp [extended, hsingle, hsome]
  | some query =>
    have hsplit : (query ++ '&' :: pair).splitOn '&' = query.splitOn '&' ++ pair.splitOn '&' :=
      List.splitOnP_append_cons query pair (beq_self_eq_true '&')
    simp only [extended, Option.getD_some, hsplit, hsingle, List.filter_append]
    simp [hsome]

/-! ### URLs without a scheme -/

/-- Whether a URL has its scheme and its authority, or is that of a socket. -/
def IsFull (text : List Char) : Prop :=
  (partsOf text).scheme ≠ none ∧ (partsOf text).authority ≠ none ∨
    (partsOf text).scheme = some "unix".toList

instance (text : List Char) : Decidable (IsFull text) :=
  inferInstanceAs (Decidable (_ ∨ _))

theorem occursIn_of_isInfix {needle text : List Char} (h : needle <:+: text) :
    occursIn needle text = true := by
  induction text with
  | nil =>
    rw [List.infix_nil.mp h]
    rfl
  | cons c rest ih =>
    rw [occursIn, Bool.or_eq_true]
    exact (List.infix_cons_iff.mp h).imp List.isPrefixOf_iff_prefix.mpr ih

theorem exists_of_scheme {text scheme : List Char} (h : (partsOf text).scheme = some scheme) :
    ∃ rest, scheme ++ ':' :: rest <+: text ∧ (partsOf text).authority = (authorityOf rest).1 := by
  have hprefix : (cut '?' (cut '#' text).1).1 <+: text :=
    (cut_isPrefix '?' _).trans (cut_isPrefix '#' text)
  simp only [partsOf, Parts.of] at h ⊢
  generalize (cut '?' (cut '#' text).1).1 = hierarchy at h hprefix ⊢
  unfold schemeOf at h ⊢
  split at h
  · next c front rest hcut =>
    split at h
    · cases h
    · next hslash =>
      cases h
      rw [if_neg hslash]
      exact ⟨rest, eq_of_cut hcut ▸ hprefix, rfl⟩
  · cases h

/-- A full URL is never taken for a bare address. -/
theorem hasScheme_of_isFull {address : String} (h : IsFull address.toList) :
    hasScheme address = true := by
  rw [hasScheme, Bool.or_eq_true]
  rcases h with ⟨hscheme, hauthority⟩ | hunix
  · left
    obtain ⟨scheme, hscheme⟩ := Option.ne_none_iff_exists'.mp hscheme
    obtain ⟨rest, hprefix, hrest⟩ := exists_of_scheme hscheme
    rw [hrest] at hauthority
    unfold authorityOf at hauthority
    split at hauthority
    · next behind =>
      obtain ⟨more, hmore⟩ := hprefix
      refine occursIn_of_isInfix ⟨scheme, behind ++ more, ?_⟩
      rw [← hmore]
      simp
    · exact absurd rfl hauthority
  · right
    obtain ⟨rest, hprefix, -⟩ := exists_of_scheme hunix
    refine List.isPrefixOf_iff_prefix.mpr (.trans ⟨rest, ?_⟩ hprefix)
    rfl

theorem hasScheme_withScheme (scheme address : String) :
    hasScheme (withScheme scheme address) = true := by
  unfold withScheme
  split
  · next h => exact h
  · refine Bool.or_eq_true_iff.mpr (.inl (occursIn_of_isInfix ⟨scheme.toList, address.toList, ?_⟩))
    rw [String.toList_append, String.toList_append]

/-- An address is given a scheme no more than once. -/
theorem withScheme_withScheme (other scheme address : String) :
    withScheme other (withScheme scheme address) = withScheme scheme address :=
  if_pos (hasScheme_withScheme scheme address)

/-- An address with a scheme in front of it has the query and the fragment that it had. -/
theorem partsOf_append_prefix {front : List Char} (hnumber : '#' ∉ front) (hquestion : '?' ∉ front)
    (text : List Char) :
    partsOf (front ++ text) = .of (front ++ (cut '?' (cut '#' text).1).1) (partsOf text).query
      (partsOf text).fragment := by
  simp only [partsOf, cut_append_of_not_mem hnumber, cut_append_of_not_mem hquestion, Parts.of]

/-- A scheme and a double slash are read as such. -/
theorem of_scheme {scheme : List Char} (hsome : scheme ≠ []) (hcolon : ':' ∉ scheme)
    (hslash : '/' ∉ scheme) (rest : List Char) (query fragment : Option (List Char)) :
    (Parts.of (scheme ++ "://".toList ++ rest) query fragment).scheme = some scheme ∧
      (Parts.of (scheme ++ "://".toList ++ rest) query fragment).authority ≠ none := by
  obtain ⟨c, front, rfl⟩ := List.exists_cons_of_ne_nil hsome
  have hcut : cut ':' (c :: front ++ "://".toList ++ rest) =
      (c :: front, some ("//".toList ++ rest)) := by
    rw [List.append_assoc]
    exact cut_append_mark hcolon ("//".toList ++ rest)
  simp only [Parts.of, schemeOf, hcut, if_neg hslash, authorityOf]
  exact ⟨trivial, Option.some_ne_none _⟩

end CacheCheck.Url
