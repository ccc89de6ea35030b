import CacheCheck.Proofs.CommandLine.Arguments

/-!
Where values come from that a variable of the environment can stand in for: the version of the
protocol, the URL of the node, and the lists of addresses. A flag behind the command goes before one
in front of it, any flag before the variable, and the variable before the standard value
(`parse_set`).

A kind of value is apart from all else on a line. Other arguments give the same whatever was given
of it (`Argument.give_set`), and its own arguments give what their texts tell (`Argument.give_own`).
So arguments give what they give without the kind, with what its texts tell in its place
(`give_all_set`), and a line is understood as it is without the kind, but for the value.
-/

set_option autoImplicit false

namespace CacheCheck.CommandLine

variable {place : Place}

/-! ### Values -/

inductive AddressList
  | nodes
  | servers
  deriving DecidableEq, Repr

/-- The values that a variable can stand in for. -/
inductive Kind
  | version
  | url
  | list (which : AddressList)
  deriving DecidableEq, Repr

namespace Kind

@[reducible] def Value : Kind → Type
  | .version => Resp.Version
  | .url => String
  | .list _ => List String

def setting : Kind → Setting
  | .version => .version
  | .url => .url
  | .list .nodes => .nodes
  | .list .servers => .servers

/-- The value that there is without any source. -/
def standard : (kind : Kind) → kind.Value
  | .version => .standard
  | .url => "redis://127.0.0.1:6379"
  | .list .nodes => ["redis://127.0.0.1:7000"]
  | .list .servers => ["127.0.0.1:11211"]

/-- What a further text makes of a value, if it can be taken. Only lists are told piece by piece. -/
def tell : (kind : Kind) → Option kind.Value → String → Option (Option kind.Value)
  | .version, none, text => (Resp.Version.parse text).toOption.map some
  | .url, none, text => some (some text)
  | .version, some _, _ => none
  | .url, some _, _ => none
  | .list _, before, text => some (append before text)

/-- What the texts of a source tell, if they can be taken. -/
def told (kind : Kind) (texts : List String) : Option (Option kind.Value) :=
  texts.foldlM kind.tell none

end Kind

/-- Puts a value in the place of another. -/
def Given.set (given : Given) : (kind : Kind) → Option kind.Value → Given
  | .version, version => { given with version }
  | .url, url => { given with url }
  | .list .nodes, nodes => { given with nodes }
  | .list .servers, servers => { given with servers }

def Environment.set (environment : Environment) (kind : Kind) (text : Option String) :
    Environment :=
  match kind with
  | .version => { environment with version := text }
  | .url => { environment with url := text }
  | .list .nodes => { environment with nodes := text }
  | .list .servers => { environment with servers := text }

def Request.set (request : Request) : (kind : Kind) → kind.Value → Request
  | .version, _ => request
  | .url, url =>
    match request with
    | .redis _ timeout => .redis url timeout
    | .all _ nodes servers => .all url nodes servers
    | _ => request
  | .list .nodes, nodes =>
    match request with
    | .cluster _ timeout => .cluster nodes timeout
    | .all url _ servers => .all url nodes servers
    | _ => request
  | .list .servers, servers =>
    match request with
    | .memcached _ wire timeout => .memcached servers wire timeout
    | .all url nodes _ => .all url nodes servers
    | _ => request

def Invocation.set (invocation : Invocation) : (kind : Kind) → kind.Value → Invocation
  | .version, version => { invocation with version }
  | .url, url => { invocation with request := invocation.request.set .url url }
  | .list which, addresses =>
    { invocation with request := invocation.request.set (.list which) addresses }

/-- Puts a value in its place in a target. Most targets have no place for it. -/
def Target.set (target : Target) : (kind : Kind) → kind.Value → Target
  | .version, version =>
    match target with
    | .redis node => .redis { node with version }
    | .cluster cluster => .cluster { cluster with version }
    | _ => target
  | .url, url =>
    match target with
    | .redis node => .redis { node with url }
    | _ => target
  | .list .nodes, nodes =>
    match target with
    | .cluster cluster => .cluster { cluster with nodes }
    | _ => target
  | .list .servers, servers =>
    match target with
    | .memcached others => .memcached { others with servers }
    | _ => target

theorem Invocation.targets_set (invocation : Invocation) (kind : Kind) (value : kind.Value) :
    (invocation.set kind value).targets = invocation.targets.map (Target.set · kind value) := by
  obtain ⟨request, version, format, onFailure, options, verbosity⟩ := invocation
  rcases kind with _ | _ | _ | _ <;> cases request <;> rfl

/-! ### Arguments of one kind -/

/-- The text that an argument tells of a kind. -/
def Argument.text? (kind : Kind) : Argument place → Option String
  | .joined flag _ text => if flag.setting = kind.setting then some text else none
  | .apart flag _ text _ => if flag.setting = kind.setting then some text else none
  | .thrown _ _ => none
  | .letters _ _ _ => none

def texts (kind : Kind) (arguments : List (Argument place)) : List String :=
  arguments.filterMap (Argument.text? kind)

def without (kind : Kind) (arguments : List (Argument place)) : List (Argument place) :=
  arguments.filter fun argument ↦ (argument.text? kind).isNone

/-- A flag gives the same whatever was given of another kind. -/
theorem Given.put_set {kind : Kind} {flag : Flag} (h : flag.setting ≠ kind.setting) (given : Given)
    (value : Option kind.Value) (text : String) :
    (given.set kind value).put flag text = (·.set kind value) <$> given.put flag text := by
  obtain ⟨name, shown, setting⟩ := flag
  rcases kind with _ | _ | _ | _ <;> cases setting <;>
    first
    | exact absurd rfl h
    | simp [Given.put, Given.set]

theorem Given.throwSwitch_set (kind : Kind) (given : Given) (value : Option kind.Value)
    (switch : Switch) :
    (given.set kind value).throwSwitch place switch =
      (·.set kind value) <$> given.throwSwitch place switch := by
  cases switch with
  | keepGoing =>
    rcases kind with _ | _ | _ | _ <;> cases hthrown : given.keepGoing <;>
      simp only [Given.throwSwitch, Given.set, hthrown, if_true, Bool.false_eq_true, if_false] <;>
      rfl
  | verbose => rcases kind with _ | _ | _ | _ <;> rfl
  | help => rfl
  | release => rfl

theorem told_singleton (kind : Kind) (text : String) : kind.told [text] = kind.tell none text := by
  rw [Kind.told, List.foldlM_cons]
  exact bind_pure (kind.tell none text)

theorem exists_of_tell_version {text : String} {found : Option Resp.Version}
    (h : Kind.tell .version none text = some found) :
    ∃ version, Resp.Version.parse text = .ok version ∧ found = some version := by
  cases hparse : Resp.Version.parse text with
  | error failure => simp [Kind.tell, hparse, Except.toOption] at h
  | ok version => exact ⟨version, rfl, by simpa [Kind.tell, hparse, Except.toOption] using h.symm⟩

/-- A flag of the kind gives what its text tells. -/
theorem Given.put_own {kind : Kind} {flag : Flag} (h : flag.setting = kind.setting) (given : Given)
    {value found : Option kind.Value} {text : String} (htell : kind.tell value text = some found) :
    (given.set kind value).put flag text = .ok (given.set kind found) := by
  obtain ⟨name, shown, setting⟩ := flag
  cases h
  rcases kind with _ | _ | _ | _
  case version =>
    cases value with
    | some version => cases htell
    | none =>
      obtain ⟨version, hparse, rfl⟩ := exists_of_tell_version htell
      simp only [Given.put, Given.set, setOnce, readNamed, hparse, Option.isSome_none,
        Bool.false_eq_true, if_false]
      rfl
  case url =>
    cases value with
    | some url => cases htell
    | none =>
      cases htell
      rfl
  all_goals
    cases htell
    rfl

/-! ### Lists of arguments -/

/-- A flag gives its value, however it is written. -/
theorem Argument.give_flag {flag : Flag} (h : flag ∈ Flag.ofPlace place) (text : String)
    (given : Given) :
    (Argument.joined flag h text).give given = given.put flag text ∧
      ∀ hplain, (Argument.apart flag h text hplain).give given = given.put flag text := by
  constructor
  · simp only [Argument.give, Argument.step, bind_assoc]
    exact bind_pure (given.put flag text)
  · exact fun _ ↦ rfl

theorem throwSwitch_given (given : Given) (switch : Switch) :
    Reading.throwSwitch place { given } switch =
      given.throwSwitch place switch >>= fun next ↦ .ok { given := next } :=
  rfl

theorem throwSwitch_set (kind : Kind) (value : Option kind.Value) {given : Given}
    {switch : Switch} {reading : Reading}
    (h : Reading.throwSwitch place { given } switch = .ok reading) :
    ∃ next : Given, reading = { given := next } ∧
      Reading.throwSwitch place { given := given.set kind value } switch =
        .ok { given := next.set kind value } := by
  rw [throwSwitch_given] at h
  obtain ⟨next, hnext, hreading⟩ := bind_eq_ok_iff.mp h
  cases hreading
  refine ⟨next, rfl, ?_⟩
  rw [throwSwitch_given, Given.throwSwitch_set, hnext]
  rfl

theorem letters_set {kind : Kind} (value : Option kind.Value) {letters : List Char} {given : Given}
    {reading : Reading} (h : Reading.letters place { given } letters = .ok reading) :
    ∃ next : Given, reading = { given := next } ∧
      Reading.letters place { given := given.set kind value } letters =
        .ok { given := next.set kind value } := by
  induction letters generalizing given with
  | nil =>
    cases h
    exact ⟨given, rfl, rfl⟩
  | cons letter rest ih =>
    rw [Reading.letters] at h ⊢
    split at h
    · cases h
    · next switch hswitch =>
      obtain ⟨middle, hmiddle, h⟩ := bind_eq_ok_iff.mp h
      obtain ⟨next, rfl, hnext⟩ := throwSwitch_set kind value hmiddle
      obtain ⟨last, rfl, hlast⟩ := ih h
      exact ⟨last, rfl, bind_eq_ok_iff.mpr ⟨_, hnext, hlast⟩⟩

/-- An argument of another kind gives the same whatever was given of this one. -/
theorem Argument.give_set {kind : Kind} {argument : Argument place}
    (h : argument.text? kind = none) {given next : Given} (hgive : argument.give given = .ok next)
    (value : Option kind.Value) :
    argument.give (given.set kind value) = .ok (next.set kind value) := by
  have hput {flag : Flag} {text : String}
      (hother : (if flag.setting = kind.setting then some text else none) = none)
      (hgive : given.put flag text = .ok next) :
      (given.set kind value).put flag text = .ok (next.set kind value) := by
    have hne : flag.setting ≠ kind.setting := fun heq ↦ by
      rw [if_pos heq] at hother
      cases hother
    rw [Given.put_set hne, hgive]
    rfl
  cases argument with
  | joined flag hflag text =>
    rw [(give_flag hflag text _).1] at hgive ⊢
    exact hput h hgive
  | apart flag hflag text hplain =>
    rw [(give_flag hflag text _).2] at hgive ⊢
    exact hput h hgive
  | thrown switch hswitch =>
    obtain ⟨reading, hreading, hgive⟩ := bind_eq_ok_iff.mp hgive
    obtain ⟨last, rfl, hlast⟩ := throwSwitch_set kind value hreading
    cases hgive
    exact bind_eq_ok_iff.mpr ⟨_, hlast, rfl⟩
  | letters first rest hletters =>
    obtain ⟨reading, hreading, hgive⟩ := bind_eq_ok_iff.mp hgive
    obtain ⟨last, rfl, hlast⟩ := letters_set value hreading
    cases hgive
    exact bind_eq_ok_iff.mpr ⟨_, hlast, rfl⟩

/-- An argument of the kind gives what its text tells. -/
theorem Argument.give_own {kind : Kind} {argument : Argument place} {text : String}
    (h : argument.text? kind = some text) (given : Given) {value found : Option kind.Value}
    (htell : kind.tell value text = some found) :
    argument.give (given.set kind value) = .ok (given.set kind found) := by
  cases argument with
  | joined flag hflag other =>
    obtain ⟨hsetting, ⟨⟩⟩ := Option.ite_none_right_eq_some.mp h
    rw [(give_flag hflag text _).1]
    exact Given.put_own hsetting given htell
  | apart flag hflag other hplain =>
    obtain ⟨hsetting, ⟨⟩⟩ := Option.ite_none_right_eq_some.mp h
    rw [(give_flag hflag text _).2]
    exact Given.put_own hsetting given htell
  | thrown switch hswitch => cases h
  | letters first rest hletters => cases h

/-- What arguments give is what those of other kinds give, and what those of the kind tell. -/
theorem give_all_set {kind : Kind} {arguments : List (Argument place)} {start rest : Given}
    {value found : Option kind.Value}
    (hrest : (without kind arguments).foldlM Argument.give start = .ok rest)
    (htold : (texts kind arguments).foldlM kind.tell value = some found) :
    arguments.foldlM Argument.give (start.set kind value) = .ok (rest.set kind found) := by
  -- The value is carried beside all else that is given, and changes at its own arguments only.
  induction arguments generalizing start value with
  | nil =>
    cases hrest
    cases htold
    rfl
  | cons argument arguments ih =>
    rw [List.foldlM_cons]
    cases htext : argument.text? kind with
    | none =>
      have hwithout : without kind (argument :: arguments) = argument :: without kind arguments :=
        List.filter_cons_of_pos (by rw [htext]; rfl)
      have htexts : texts kind (argument :: arguments) = texts kind arguments :=
        List.filterMap_cons_none htext
      rw [hwithout, List.foldlM_cons] at hrest
      obtain ⟨middle, hmiddle, hrest⟩ := bind_eq_ok_iff.mp hrest
      rw [htexts] at htold
      rw [Argument.give_set htext hmiddle, ok_bind]
      exact ih hrest htold
    | some text =>
      have hwithout : without kind (argument :: arguments) = without kind arguments :=
        List.filter_cons_of_neg (by rw [htext]; exact Bool.false_ne_true)
      have htexts : texts kind (argument :: arguments) = text :: texts kind arguments :=
        List.filterMap_cons_some htext
      rw [hwithout] at hrest
      rw [htexts, List.foldlM_cons] at htold
      obtain ⟨middle, hmiddle, htold⟩ := Option.bind_eq_some_iff.mp htold
      rw [Argument.give_own htext start hmiddle, ok_bind]
      exact ih hrest htold

theorem given_eq_set {kind : Kind} {arguments : List (Argument place)} {rest : Given}
    {found : Option kind.Value} (hrest : given (without kind arguments) = .ok rest)
    (htold : kind.told (texts kind arguments) = some found) :
    given arguments = .ok (rest.set kind found) := by
  have hempty : Given.set {} kind none = {} := by rcases kind with _ | _ | _ | _ <;> rfl
  have hall := give_all_set hrest htold
  rwa [hempty] at hall

theorem texts_without (kind : Kind) (arguments : List (Argument place)) :
    texts kind (without kind arguments) = [] := by
  rw [texts, without, List.filterMap_eq_nil_iff]
  simp

/-- Arguments of other kinds leave a kind as it was. -/
theorem set_none_of_given {kind : Kind} {arguments : List (Argument place)} {rest : Given}
    (hrest : given (without kind arguments) = .ok rest) : rest.set kind none = rest := by
  have hwithout : without kind (without kind arguments) = without kind arguments := by
    simp [without]
  have htold : kind.told (texts kind (without kind arguments)) = some none := by
    rw [texts_without]
    rfl
  have hsame := given_eq_set (hwithout.symm ▸ hrest) htold
  rw [hrest] at hsame
  exact (Except.ok.inj hsame).symm

/-! ### Lines -/

theorem orElse_set (kind : Kind) (after before : Given) (late early : Option kind.Value) :
    (after.set kind late).orElse (before.set kind early) =
      (after.orElse before).set kind (late <|> early) := by
  rcases kind with _ | _ | _ | _ <;> rfl

/-- What is given of a kind, or else what its variable tells, is the value of an invocation. -/
theorem exists_ofGiven_set {kind : Kind} {environment : Environment} {given : Given}
    {version : Option Resp.Version} {content : Option String} {found : Option kind.Value}
    (hversion : (environment.set kind none).version? (given.set kind none) = .ok version)
    (hfound : kind.told content.toList = some found) (own : Option kind.Value)
    (command : Command) :
    ∃ other, (environment.set kind content).version? (given.set kind own) = .ok other ∧
      Invocation.ofGiven (environment.set kind content) command (given.set kind own) other =
        (Invocation.ofGiven (environment.set kind none) command (given.set kind none) version).set
          kind ((own <|> found).getD kind.standard) := by
  rcases kind with _ | _ | _ | _
  case version =>
    cases hversion
    cases own with
    | some version => exact ⟨some version, rfl, rfl⟩
    | none =>
      cases content with
      | none =>
        cases hfound
        exact ⟨none, rfl, rfl⟩
      | some text =>
        rw [Option.toList_some, told_singleton] at hfound
        obtain ⟨version, hparse, rfl⟩ := exists_of_tell_version hfound
        refine ⟨some version, ?_, rfl⟩
        simp only [Environment.version?, Environment.set, Given.set, readNamed, hparse]
        rfl
  all_goals
    refine ⟨version, hversion, ?_⟩
    cases content with
    | none =>
      cases hfound
      cases own <;> cases command <;> rfl
    | some text =>
      cases hfound
      cases own <;> cases command <;> rfl

/-- A line without the flags of a kind. -/
def Line.without (line : Line) (kind : Kind) : Line :=
  { line with
    front := CommandLine.without kind line.front
    back := CommandLine.without kind line.back }

/-- The value of a kind is what the first of its sources tells, and nothing else depends on them. -/
theorem parse_set {kind : Kind} {environment : Environment} {line : Line} {base : Invocation}
    (hbase : Invocation.parse (environment.set kind none) (line.without kind).words = .ok base)
    {content : Option String} {after before found : Option kind.Value}
    (hafter : kind.told (texts kind line.back) = some after)
    (hbefore : kind.told (texts kind line.front) = some before)
    (hfound : kind.told content.toList = some found) :
    Invocation.parse (environment.set kind content) line.words =
      .ok (base.set kind (((after <|> before) <|> found).getD kind.standard)) := by
  obtain ⟨early, late, version, hearly, hlate, ⟨lateVersion, hlateVersion⟩,
    ⟨earlyVersion, hearlyVersion⟩, hversion, rfl⟩ := parse_words_iff.mp hbase
  -- Without the kind, nothing was given of it on either side of the command.
  rw [← set_none_of_given hlate] at hlateVersion hversion
  rw [← set_none_of_given hearly] at hearlyVersion hversion
  rw [orElse_set] at hversion
  obtain ⟨lateFound, hlateFound, -⟩ := exists_ofGiven_set hlateVersion hfound after line.command
  obtain ⟨earlyFound, hearlyFound, -⟩ :=
    exists_ofGiven_set hearlyVersion hfound before line.command
  obtain ⟨other, hother, hinvocation⟩ :=
    exists_ofGiven_set hversion hfound (after <|> before) line.command
  rw [← orElse_set] at hother hinvocation
  refine parse_words_iff.mpr ⟨early.set kind before, late.set kind after, other,
    given_eq_set hearly hbefore, given_eq_set hlate hafter, ⟨lateFound, hlateFound⟩,
    ⟨earlyFound, hearlyFound⟩, hother, ?_⟩
  have hsame := orElse_set kind late early none none
  rw [set_none_of_given hlate, set_none_of_given hearly] at hsame
  rw [hinvocation]
  exact congrArg (fun given ↦ (Invocation.ofGiven _ _ given version).set kind _) hsame

/-- In front of a command, there is no place for an address. -/
theorem texts_front {kind : Kind} (h : kind ≠ .version) (front : List (Argument none)) :
    texts kind front = [] := by
  have hother : ∀ flag ∈ Flag.ofPlace none, flag.setting ≠ kind.setting := by
    rcases kind with _ | _ | _ | _
    · exact absurd rfl h
    all_goals decide
  refine List.filterMap_eq_nil_iff.mpr fun argument _ ↦ ?_
  cases argument with
  | joined flag hflag text => exact if_neg (hother flag hflag)
  | apart flag hflag text hplain => exact if_neg (hother flag hflag)
  | thrown switch hswitch => rfl
  | letters first rest hletters => rfl

/-! ### All sources -/

/-- How the value of a kind is found. The base is what is understood without any source of it. -/
structure Sourced (kind : Kind) (environment : Environment) (plain : Line) (base : Invocation) :
    Prop where
  /-- A flag behind the command goes before one in front of it, and any flag before the variable.
  Nothing else depends on them. -/
  precedence {line : Line} (hline : line.without kind = plain) {content : Option String}
    {after before found : Option kind.Value}
    (hafter : kind.told (texts kind line.back) = some after)
    (hbefore : kind.told (texts kind line.front) = some before)
    (hfound : kind.told content.toList = some found) :
    Invocation.parse (environment.set kind content) line.words =
      .ok (base.set kind (((after <|> before) <|> found).getD kind.standard))
  standard : base.set kind kind.standard = base
  targets (value : kind.Value) :
    (base.set kind value).targets = base.targets.map (Target.set · kind value)

theorem told_of_without {kind : Kind} {plain : Line} (hplain : plain.without kind = plain) :
    kind.told (texts kind plain.front) = some none ∧
      kind.told (texts kind plain.back) = some none := by
  have hfront : texts kind plain.front = [] := hplain ▸ texts_without kind plain.front
  have hback : texts kind plain.back = [] := hplain ▸ texts_without kind plain.back
  rw [hfront, hback]
  exact ⟨rfl, rfl⟩

theorem sourced {kind : Kind} {environment : Environment} {plain : Line} {base : Invocation}
    (hplain : plain.without kind = plain)
    (hbase : Invocation.parse (environment.set kind none) plain.words = .ok base) :
    Sourced kind environment plain base := by
  have hprecedence {line : Line} (hline : line.without kind = plain) {content : Option String}
      {after before found : Option kind.Value}
      (hafter : kind.told (texts kind line.back) = some after)
      (hbefore : kind.told (texts kind line.front) = some before)
      (hfound : kind.told content.toList = some found) :
      Invocation.parse (environment.set kind content) line.words =
        .ok (base.set kind (((after <|> before) <|> found).getD kind.standard)) := by
    subst hline
    exact parse_set hbase hafter hbefore hfound
  refine
    { precedence := hprecedence
      standard := ?_
      targets := base.targets_set kind }
  obtain ⟨hfront, hback⟩ := told_of_without hplain
  have hnone : kind.told (none : Option String).toList = some none := rfl
  have hsame := hprecedence hplain hback hfront hnone
  exact (Except.ok.inj (hbase.symm.trans hsame)).symm

end CacheCheck.CommandLine
