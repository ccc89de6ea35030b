import CacheCheck.Proofs.CommandLine.Lists
import CacheCheck.Proofs.CommandLine.Sources

/-!
Lists of addresses. A list is told piece by piece, so that the order of its addresses is all that
counts, and not where it is cut (`told_groups`). So the same list comes of any words with a flag, of
one word with commas, and of the variable, and nothing else on the line is changed by it
(`parse_sourced`).
-/

set_option autoImplicit false

namespace CacheCheck.CommandLine

/-! ### Groups of addresses -/

/-- A text that can be one of several addresses in a word of their own. -/
structure IsAddress (address : String) : Prop where
  nonempty : address ≠ ""
  no_comma : ',' ∉ address.toList
  no_dash : address.toList.head? ≠ some '-'

instance (address : String) : Decidable (IsAddress address) :=
  decidable_of_iff (address ≠ "" ∧ ',' ∉ address.toList ∧ address.toList.head? ≠ some '-')
    ⟨fun ⟨hsome, hcomma, hdash⟩ ↦ ⟨hsome, hcomma, hdash⟩,
      fun h ↦ ⟨h.nonempty, h.no_comma, h.no_dash⟩⟩

/-- Addresses with commas between can be a word of their own. -/
theorem ofText_intercalate {group : List String} (hsome : group ≠ [])
    (haddress : ∀ address ∈ group, IsAddress address) :
    Word.ofText (",".intercalate group) = .plain (",".intercalate group) := by
  obtain ⟨first, rest, rfl⟩ := List.exists_cons_of_ne_nil hsome
  have hfirst := haddress first List.mem_cons_self
  obtain ⟨c, chars, hchars⟩ :=
    List.exists_cons_of_ne_nil (mt String.toList_eq_nil_iff.mp hfirst.nonempty)
  have hhead : (",".intercalate (first :: rest)).toList.head? = first.toList.head? := by
    rw [String.toList_intercalate, List.map_cons, hchars]
    cases rest.map String.toList <;> simp [List.intercalate_cons_cons]
  exact ofText_plain (hhead ▸ hfirst.no_dash)

theorem foldlM_tell_list (which : AddressList) (before : List String) (texts : List String) :
    texts.foldlM (Kind.tell (.list which)) (some before) =
      some (some (before ++ texts.flatMap splitList)) := by
  induction texts generalizing before with
  | nil => simp
  | cons text texts ih =>
    rw [List.foldlM_cons]
    exact (ih _).trans (by simp)

/-- Groups of addresses, none of them empty, of which there is one at least. -/
structure IsCut (groups : List (List String)) : Prop where
  nonempty : groups ≠ []
  group_ne : ∀ group ∈ groups, group ≠ []
  isAddress : ∀ group ∈ groups, ∀ address ∈ group, IsAddress address

theorem IsCut.isSplit {groups : List (List String)} (h : IsCut groups) (group : List String)
    (hmem : group ∈ groups) : IsSplit group :=
  ⟨h.group_ne group hmem, fun address haddress ↦ (h.isAddress group hmem address haddress).no_comma⟩

/-- However addresses are cut into groups, they are told in order. -/
theorem told_groups (which : AddressList) {groups : List (List String)} (h : IsCut groups) :
    Kind.told (.list which) (groups.map (",".intercalate ·)) = some (some groups.flatten) := by
  have hsplit : (groups.map (",".intercalate ·)).flatMap splitList = groups.flatten := by
    have hmap : groups.map (splitList ∘ (",".intercalate ·)) = groups.map id :=
      List.map_congr_left fun group hmem ↦
        splitList_intercalate (h.isSplit group hmem)
    rw [List.flatMap_def, List.map_map, hmap, List.map_id]
  obtain ⟨first, rest, rfl⟩ := List.exists_cons_of_ne_nil h.nonempty
  rw [List.map_cons] at hsplit ⊢
  rw [Kind.told, List.foldlM_cons]
  refine (foldlM_tell_list which (splitList (",".intercalate first)) _).trans ?_
  rw [← List.flatMap_cons, hsplit]

/-! ### Lists on a line -/

/-- The list that a target has, if it has one of this sort. -/
def AddressList.of? (which : AddressList) (target : Target) : Option (List String) :=
  match which, target with
  | .nodes, .cluster cluster => some cluster.nodes
  | .servers, .memcached others => some others.servers
  | _, _ => none

/-- The commands with a flag for a list. -/
def AddressList.commands : AddressList → List Command
  | .nodes => [.cluster, .all]
  | .servers => [.memcached, .all]

/-- How a list of addresses is found. -/
structure Listed (which : AddressList) (environment : Environment) (plain : Line)
    (base : Invocation) : Prop where
  /-- Any groups of addresses are the same list, whatever the variable says. -/
  flags {line : Line} (hline : line.without (.list which) = plain) {groups : List (List String)}
    (hgroups : IsCut groups)
    (htexts : texts (.list which) line.back = groups.map (",".intercalate ·))
    (content : Option String) :
    Invocation.parse (environment.set (.list which) content) line.words =
      .ok (base.set (.list which) groups.flatten)
  /-- Nothing that the variable says is heard where there is a flag. -/
  deaf {line : Line} (hline : line.without (.list which) = plain)
    (hsome : texts (.list which) line.back ≠ []) (content other : Option String) :
    Invocation.parse (environment.set (.list which) content) line.words =
      Invocation.parse (environment.set (.list which) other) line.words
  content {addresses : List String} (hsome : addresses ≠ [])
    (haddresses : ∀ address ∈ addresses, IsAddress address) :
    Invocation.parse (environment.set (.list which) (some (",".intercalate addresses)))
      plain.words = .ok (base.set (.list which) addresses)
  standard (hcommand : plain.command ∈ which.commands) :
    base.targets.filterMap which.of? = [(Kind.list which).standard] ∧
      (Kind.list which).standard.length = 1
  held (hcommand : plain.command ∈ which.commands) (addresses : List String) :
    (base.set (.list which) addresses).targets.filterMap which.of? = [addresses]
  /-- A group can be written as a word of its own. -/
  apart {group : List String} (hsome : group ≠ [])
    (haddress : ∀ address ∈ group, IsAddress address) :
    Word.ofText (",".intercalate group) = .plain (",".intercalate group)

theorem held_of_parse {which : AddressList} {environment : Environment} {line : Line}
    {base : Invocation} (hbase : Invocation.parse environment line.words = .ok base)
    (hcommand : line.command ∈ which.commands) (addresses : List String) :
    (base.set (.list which) addresses).targets.filterMap which.of? = [addresses] := by
  obtain ⟨before, after, version, -, -, -, -, -, rfl⟩ := parse_words_iff.mp hbase
  generalize line.command = command at hcommand ⊢
  rcases which with _ | _
  all_goals
    simp only [AddressList.commands, List.mem_cons, List.not_mem_nil, or_false] at hcommand
    rcases hcommand with rfl | rfl <;> rfl

theorem listed {which : AddressList} {environment : Environment} {plain : Line} {base : Invocation}
    (hplain : plain.without (.list which) = plain)
    (hbase : Invocation.parse (environment.set (.list which) none) plain.words = .ok base) :
    Listed which environment plain base := by
  have hsourced := sourced hplain hbase
  have hback := (told_of_without hplain).2
  have hfront (line : Line) : Kind.told (.list which) (texts (.list which) line.front) =
      some none := by
    rw [texts_front (by simp)]
    rfl
  have hcontent (content : Option String) : ∃ found,
      Kind.told (.list which) content.toList = some found := by
    cases content <;> exact ⟨_, rfl⟩
  refine
    { flags := fun {line} hline groups hgroups htexts content ↦ ?_
      deaf := fun {line} hline hsome content other ↦ ?_
      content := fun {addresses} hsome haddresses ↦ ?_
      standard := fun hcommand ↦ ?_
      held := held_of_parse hbase
      apart := ofText_intercalate }
  · obtain ⟨found, hfound⟩ := hcontent content
    exact hsourced.precedence hline (htexts ▸ told_groups which hgroups) (hfront line) hfound
  · obtain ⟨first, rest, htexts⟩ := List.exists_cons_of_ne_nil hsome
    obtain ⟨all, htold⟩ : ∃ all,
        Kind.told (.list which) (texts (.list which) line.back) = some (some all) := by
      rw [htexts]
      exact ⟨_, foldlM_tell_list which (splitList first) rest⟩
    obtain ⟨found, hfound⟩ := hcontent content
    obtain ⟨unheard, hunheard⟩ := hcontent other
    exact (hsourced.precedence hline htold (hfront line) hfound).trans
      (hsourced.precedence hline htold (hfront line) hunheard).symm
  · have hgroup : IsCut [addresses] :=
      ⟨List.cons_ne_nil _ _, by simpa using hsome, by simpa using haddresses⟩
    have hfound : Kind.told (.list which) (some (",".intercalate addresses)).toList =
        some (some addresses) := by
      have htold := told_groups which hgroup
      rwa [List.flatten_singleton] at htold
    exact hsourced.precedence hplain hback (hfront plain) hfound
  · rw [← hsourced.standard]
    refine ⟨held_of_parse hbase hcommand _, ?_⟩
    rcases which with _ | _ <;> rfl

/-- Whatever else is on a line, the values that a variable can stand in for are found in their
order, and lists of addresses are the same from each of their sources. -/
theorem parse_sourced (kind : Kind) (environment : Environment) {plain : Line} {base : Invocation}
    (hplain : plain.without kind = plain)
    (hbase : Invocation.parse (environment.set kind none) plain.words = .ok base) :
    Sourced kind environment plain base ∧
      ∀ which, kind = .list which → Listed which environment plain base := by
  refine ⟨sourced hplain hbase, ?_⟩
  rintro which rfl
  exact listed hplain hbase

/-- Addresses in two words, and another one in the variable. -/
theorem parse_sourced_all :
    ∃ base, Invocation.parse {} ["all"] = .ok base ∧
      Invocation.parse { nodes := some "d:4" }
          ["all", "--cluster-node", "a:1,b:2", "--cluster-node=c:3"] =
        .ok (base.set (.list .nodes) ["a:1", "b:2", "c:3"]) := by
  let line : Line :=
    ⟨[], .all, [.apart ⟨"cluster-node", "CLUSTER_NODES", .nodes⟩ (by decide) "a:1,b:2" (by decide),
      .joined ⟨"cluster-node", "CLUSTER_NODES", .nodes⟩ (by decide) "c:3"]⟩
  have hplain : Line.without ⟨[], .all, []⟩ (.list .nodes) = ⟨[], .all, []⟩ := rfl
  have hline : line.without (.list .nodes) = ⟨[], .all, []⟩ := rfl
  have hcut : IsCut [["a:1", "b:2"], ["c:3"]] := ⟨by decide, by decide, by decide⟩
  obtain ⟨base, hbase⟩ : ∃ base, Invocation.parse {} ["all"] = .ok base := ⟨_, rfl⟩
  have hlisted := (parse_sourced (.list .nodes) {} hplain hbase).2 .nodes rfl
  exact ⟨base, hbase, hlisted.flags hline hcut rfl (some "d:4")⟩

end CacheCheck.CommandLine
