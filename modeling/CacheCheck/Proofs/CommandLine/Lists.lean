import CacheCheck.CommandLine.Invocation
import CacheCheck.Proofs.Steps

/-!
Lists of addresses on the command line. A text is cut at each of its commas, and what comes of this
is a list with an item at least and without commas in its items. Every such list is that of its
items with commas between (`splitList_intercalate`), and no other lists are ever given: flags and
variables add pieces of texts to them, and the standard lists are of this sort too. So they are all
that a target of an invocation can have (`isListed_of_parse`).
-/

set_option autoImplicit false

namespace CacheCheck

namespace CommandLine

/-! ### Texts with commas -/

/-- A list that a text with commas can stand for. -/
structure IsSplit (items : List String) : Prop where
  nonempty : items ≠ []
  no_comma : ∀ item ∈ items, ',' ∉ item.toList

instance (items : List String) : Decidable (IsSplit items) :=
  decidable_of_iff (items ≠ [] ∧ ∀ item ∈ items, ',' ∉ item.toList)
    ⟨fun ⟨hsome, hcomma⟩ ↦ ⟨hsome, hcomma⟩, fun h ↦ ⟨h.nonempty, h.no_comma⟩⟩

theorem not_mem_of_mem_splitOn {mark : Char} {chars piece : List Char}
    (h : piece ∈ chars.splitOn mark) : mark ∉ piece := by
  induction chars generalizing piece with
  | nil =>
    rw [List.splitOn_nil, List.mem_singleton] at h
    exact h ▸ List.not_mem_nil
  | cons c rest ih =>
    obtain ⟨first, others, hrest⟩ := List.exists_cons_of_ne_nil (List.splitOn_ne_nil mark rest)
    rw [List.splitOn_cons_eq_if_modifyHead, hrest] at h
    rw [hrest] at ih
    by_cases hc : c = mark
    · rw [if_pos (beq_iff_eq.mpr hc)] at h
      rcases List.mem_cons.mp h with rfl | hmem
      · exact List.not_mem_nil
      · exact ih hmem
    · rw [if_neg (mt beq_iff_eq.mp hc), List.modifyHead_cons] at h
      rcases List.mem_cons.mp h with rfl | hmem
      · exact List.not_mem_cons_of_ne_of_not_mem (Ne.symm hc) (ih List.mem_cons_self)
      · exact ih (List.mem_cons_of_mem first hmem)

theorem isSplit_splitList (text : String) : IsSplit (splitList text) where
  nonempty := by simp [splitList]
  no_comma item hmem := by
    obtain ⟨piece, hpiece, rfl⟩ := List.mem_map.mp hmem
    rw [String.toList_ofList]
    exact not_mem_of_mem_splitOn hpiece

/-- A list is cut again where it was put together. -/
theorem splitList_intercalate {items : List String} (h : IsSplit items) :
    splitList (",".intercalate items) = items := by
  have hchars : (",".intercalate items).toList = [','].intercalate (items.map String.toList) :=
    String.toList_intercalate
  have hcomma : ∀ chars ∈ items.map String.toList, ',' ∉ chars := by
    intro chars hmem
    obtain ⟨item, hitem, rfl⟩ := List.mem_map.mp hmem
    exact h.no_comma item hitem
  rw [splitList, hchars, List.splitOn_intercalate ',' hcomma (by simpa using h.nonempty),
    List.map_map]
  simp [Function.comp_def]

/-! ### Lists in place of others -/

section

variable {first second : Option (List String)}

theorem isSplit_append (h : ∀ items ∈ first, IsSplit items) (text : String) :
    ∀ items ∈ append first text, IsSplit items := by
  rintro _ ⟨⟩
  have hpieces := isSplit_splitList text
  refine ⟨List.append_ne_nil_of_right_ne_nil _ hpieces.nonempty, fun item hmem ↦ ?_⟩
  rcases List.mem_append.mp hmem with hbefore | hpiece
  · cases first with
    | none => cases hbefore
    | some items => exact (h items rfl).no_comma item hbefore
  · exact hpieces.no_comma item hpiece

theorem isSplit_orElse (hfirst : ∀ items ∈ first, IsSplit items)
    (hsecond : ∀ items ∈ second, IsSplit items) : ∀ items ∈ first <|> second, IsSplit items := by
  cases first with
  | none => exact hsecond
  | some items => exact hfirst

theorem isSplit_map_splitList (text? : Option String) :
    ∀ items ∈ text?.map splitList, IsSplit items := by
  intro items hmem
  obtain ⟨text, -, rfl⟩ := Option.map_eq_some_iff.mp hmem
  exact isSplit_splitList text

theorem isSplit_getD (h : ∀ items ∈ first, IsSplit items) {standard : List String}
    (hstandard : IsSplit standard) : IsSplit (first.getD standard) := by
  cases first with
  | none => exact hstandard
  | some items => exact h items rfl

end

/-! ### Lists that were given -/

/-- Lists that were given are lists that texts can stand for. -/
structure Given.IsListed (given : Given) : Prop where
  nodes : ∀ nodes ∈ given.nodes, IsSplit nodes
  servers : ∀ servers ∈ given.servers, IsSplit servers

namespace Given.IsListed

variable {given : Given} {place : Place}

theorem put (h : given.IsListed) {flag : Flag} {text : String} {next : Given}
    (hput : given.put flag text = .ok next) : next.IsListed := by
  obtain ⟨name, shown, setting⟩ := flag
  cases setting with
  | nodes =>
    cases hput
    exact ⟨isSplit_append h.nodes text, h.servers⟩
  | servers =>
    cases hput
    exact ⟨h.nodes, isSplit_append h.servers text⟩
  | format | version | delay | bulkCount | url | wire | timeout =>
    obtain ⟨value, -, hnext⟩ := bind_eq_ok_iff.mp hput
    cases hnext
    exact ⟨h.nodes, h.servers⟩

theorem throwSwitch (h : given.IsListed) {switch : Switch} {next : Given}
    (hthrow : given.throwSwitch place switch = .ok next) : next.IsListed := by
  cases switch with
  | help | release => cases hthrow
  | verbose =>
    cases hthrow
    exact ⟨h.nodes, h.servers⟩
  | keepGoing =>
    simp only [Given.throwSwitch] at hthrow
    split at hthrow <;> cases hthrow
    exact ⟨h.nodes, h.servers⟩

theorem orElse {before : Given} (h : given.IsListed) (hbefore : before.IsListed) :
    (given.orElse before).IsListed where
  nodes := isSplit_orElse h.nodes hbefore.nodes
  servers := isSplit_orElse h.servers hbefore.servers

end Given.IsListed

/-! ### Reading words -/

namespace Reading

variable {place : Place} {reading : Reading}

theorem isListed_settle (h : reading.given.IsListed) {next : Given}
    (hsettle : reading.settle = .ok next) : next.IsListed := by
  obtain ⟨given, pending⟩ := reading
  rcases pending with _ | ⟨flag, _ | text⟩
  · cases hsettle
    exact h
  · cases hsettle
  · exact h.put hsettle

theorem isListed_throwSwitch (h : reading.given.IsListed) {switch : Switch} {next : Reading}
    (hthrow : reading.throwSwitch place switch = .ok next) : next.given.IsListed := by
  obtain ⟨settled, hsettle, hrest⟩ := bind_eq_ok_iff.mp hthrow
  obtain ⟨given, hgiven, hnext⟩ := bind_eq_ok_iff.mp hrest
  cases hnext
  exact (isListed_settle h hsettle).throwSwitch hgiven

theorem isListed_letters (h : reading.given.IsListed) {letters : List Char} {next : Reading}
    (hletters : reading.letters place letters = .ok next) : next.given.IsListed := by
  induction letters generalizing reading with
  | nil =>
    cases hletters
    exact h
  | cons letter rest ih =>
    rw [Reading.letters] at hletters
    split at hletters
    · cases hletters
    · obtain ⟨thrown, hthrow, hrest⟩ := bind_eq_ok_iff.mp hletters
      exact ih (isListed_throwSwitch h hthrow) hrest

theorem isListed_named (h : reading.given.IsListed) {name : String} {value : Option String}
    {next : Reading} (hnamed : reading.named place name value = .ok next) :
    next.given.IsListed := by
  unfold Reading.named at hnamed
  split at hnamed
  · obtain ⟨settled, hsettle, hrest⟩ := bind_eq_ok_iff.mp hnamed
    obtain ⟨given, hput, hnext⟩ := bind_eq_ok_iff.mp hrest
    cases hnext
    exact (isListed_settle h hsettle).put hput
  · obtain ⟨settled, hsettle, hnext⟩ := bind_eq_ok_iff.mp hnamed
    cases hnext
    exact isListed_settle h hsettle
  · cases hnamed
  · exact isListed_throwSwitch h hnamed
  · cases hnamed

theorem isListed_words (h : reading.given.IsListed) {words : List String} {last : Reading}
    {command? : Option (Command × List String)}
    (hwords : reading.words place words = .ok (last, command?)) : last.given.IsListed := by
  induction words generalizing reading with
  | nil =>
    cases hwords
    exact h
  | cons word rest ih =>
    unfold Reading.words at hwords
    split at hwords
    · split at hwords <;> cases hwords
      exact h
    · obtain ⟨next, hnamed, hrest⟩ := bind_eq_ok_iff.mp hwords
      exact ih (isListed_named h hnamed) hrest
    · obtain ⟨next, hletters, hrest⟩ := bind_eq_ok_iff.mp hwords
      exact ih (isListed_letters h hletters) hrest
    · split at hwords
      · refine ih ?_ hwords
        exact h
      · split at hwords
        · cases hwords
        · split at hwords <;> cases hwords
          exact h

end Reading

end CommandLine

/-! ### Targets -/

/-- Whether the addresses of a target, if it has a list of them, can be written as one text. -/
def Target.IsListed : Target → Prop
  | .redis _ => True
  | .cluster target => CommandLine.IsSplit target.nodes
  | .memcached target => CommandLine.IsSplit target.servers

namespace CommandLine.Invocation

theorem isListed_ofGiven {environment : Environment} {command : Command} {given : Given}
    (h : given.IsListed) {version : Option Resp.Version} {target : Target}
    (hmem : target ∈ (ofGiven environment command given version).targets) : target.IsListed := by
  have hnodes : IsSplit ((environment.nodes? given).getD ({} : Redis.Cluster).nodes) :=
    isSplit_getD (isSplit_orElse h.nodes (isSplit_map_splitList environment.nodes)) (by decide)
  have hservers : IsSplit ((environment.servers? given).getD ({} : Memcached.Servers).servers) :=
    isSplit_getD (isSplit_orElse h.servers (isSplit_map_splitList environment.servers)) (by decide)
  cases command with
  | redis =>
    obtain rfl := List.mem_singleton.mp hmem
    trivial
  | cluster =>
    obtain rfl := List.mem_singleton.mp hmem
    exact hnodes
  | memcached =>
    obtain rfl := List.mem_singleton.mp hmem
    exact hservers
  | all =>
    simp only [targets, ofGiven, requestOf, Request.targets, List.mem_cons, List.not_mem_nil,
      or_false] at hmem
    rcases hmem with rfl | rfl | rfl
    · trivial
    · exact hnodes
    · exact hservers

/-- Whatever the words and the variables are, the targets that they come to can be written again. -/
theorem isListed_of_parse {environment : Environment} {words : List String}
    {invocation : Invocation} (h : parse environment words = .ok invocation) {target : Target}
    (hmem : target ∈ invocation.targets) : target.IsListed := by
  have hnone : Given.IsListed {} := ⟨nofun, nofun⟩
  obtain ⟨⟨front, command?⟩, hfront, hrest⟩ := bind_eq_ok_iff.mp h
  cases command? with
  | none =>
    obtain ⟨before, -, hrest⟩ := bind_eq_ok_iff.mp hrest
    obtain ⟨version, -, hrest⟩ := bind_eq_ok_iff.mp hrest
    cases hrest
  | some found =>
    obtain ⟨command, rest⟩ := found
    obtain ⟨⟨back, none?⟩, hback, hrest⟩ := bind_eq_ok_iff.mp hrest
    obtain ⟨after, hafter, hrest⟩ := bind_eq_ok_iff.mp hrest
    obtain ⟨-, -, hrest⟩ := bind_eq_ok_iff.mp hrest
    obtain ⟨before, hbefore, hrest⟩ := bind_eq_ok_iff.mp hrest
    obtain ⟨-, -, hrest⟩ := bind_eq_ok_iff.mp hrest
    obtain ⟨version, -, hinvocation⟩ := bind_eq_ok_iff.mp hrest
    cases hinvocation
    have hgiven : (after.orElse before).IsListed :=
      (Reading.isListed_settle (Reading.isListed_words hnone hback) hafter).orElse
        (Reading.isListed_settle (Reading.isListed_words hnone hfront) hbefore)
    exact isListed_ofGiven hgiven hmem

end CommandLine.Invocation

end CacheCheck
