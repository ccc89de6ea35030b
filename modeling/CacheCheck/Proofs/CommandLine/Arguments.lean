import CacheCheck.CommandLine.Invocation
import CacheCheck.Proofs.Steps

/-!
Command lines as lists of arguments. An argument is a flag with its value or some switches, in any
of the ways in which it can be written. The value of a flag is looked at late, but what a list of
arguments gives in the end is what each of them gives in its turn (`settle_steps`), and a line is
understood just when both of its lists are (`parse_words_iff`).
-/

set_option autoImplicit false

namespace CacheCheck.CommandLine

variable {place : Place}

/-! ### Words -/

/-- An argument at a place. The value of a flag is joined to it by an equals sign, or is a word of
its own; switches are written in full, or as letters behind one dash. -/
inductive Argument (place : Place)
  | joined (flag : Flag) (h : flag ∈ Flag.ofPlace place) (text : String)
  | apart (flag : Flag) (h : flag ∈ Flag.ofPlace place) (text : String)
    (hplain : Word.ofText text = .plain text)
  | thrown (switch : Switch) (h : switch ∈ Switch.ofPlace place)
  | letters (first : Char) (rest : List Char)
    (h : ∀ letter ∈ first :: rest, (Switch.ofLetter? place letter).isSome)

def Argument.words : Argument place → List String
  | .joined flag _ text => ["--" ++ flag.name ++ "=" ++ text]
  | .apart flag _ text _ => ["--" ++ flag.name, text]
  | .thrown switch _ => ["--" ++ switch.name]
  | .letters first rest _ => [String.ofList ('-' :: first :: rest)]

theorem ofText_dashes {word : String} {chars : List Char} (hsome : chars ≠ [])
    (hword : word.toList = '-' :: '-' :: chars) :
    Word.ofText word = .long (String.ofList (chars.takeWhile (· ≠ '=')))
      ((chars.dropWhile (· ≠ '=')).tail?.map String.ofList) := by
  obtain ⟨c, rest, rfl⟩ := List.exists_cons_of_ne_nil hsome
  rw [Word.ofText, hword]
  dsimp only
  split
  · next heq => cases heq
  · next heq =>
    cases heq
    split <;> next hdrop => rw [hdrop]; rfl
  · next hdash heq =>
    cases heq
    exact absurd rfl hdash
  · next hother _ => exact (hother _ rfl).elim

theorem takeWhile_of_not_mem {mark : Char} {chars : List Char} (h : mark ∉ chars)
    (rest : List Char) :
    (chars ++ rest).takeWhile (· ≠ mark) = chars ++ rest.takeWhile (· ≠ mark) ∧
      (chars ++ rest).dropWhile (· ≠ mark) = rest.dropWhile (· ≠ mark) := by
  have hall : ∀ c ∈ chars, decide (c ≠ mark) = true := fun c hc ↦
    decide_eq_true fun heq ↦ h (heq ▸ hc)
  exact ⟨List.takeWhile_append_of_pos hall, List.dropWhile_append_of_pos hall⟩

/-- The name of a flag or of a switch. -/
def IsName (name : String) : Prop :=
  name.toList ≠ [] ∧ '=' ∉ name.toList

theorem ofText_long {name : String} (h : IsName name) :
    Word.ofText ("--" ++ name) = .long name none := by
  obtain ⟨htake, hdrop⟩ := takeWhile_of_not_mem h.2 []
  rw [List.append_nil] at htake hdrop
  rw [ofText_dashes h.1 (String.toList_append ..), htake, hdrop]
  simp

theorem ofText_joined {name : String} (h : IsName name) (text : String) :
    Word.ofText ("--" ++ name ++ "=" ++ text) = .long name (some text) := by
  have hword : ("--" ++ name ++ "=" ++ text).toList =
      '-' :: '-' :: (name.toList ++ '=' :: text.toList) := by
    simp [String.toList_append]
  obtain ⟨htake, hdrop⟩ := takeWhile_of_not_mem h.2 ('=' :: text.toList)
  rw [ofText_dashes (by simp) hword, htake, hdrop]
  simp

theorem ofText_plain {text : String} (h : text.toList.head? ≠ some '-') :
    Word.ofText text = .plain text := by
  unfold Word.ofText
  split
  · next heq => simp [heq] at h
  · next heq => simp [heq] at h
  · next heq => simp [heq] at h
  · rfl

theorem Flag.ofName?_name {flag : Flag} (h : flag ∈ ofPlace place) :
    ofName? place flag.name = some flag := by
  revert flag
  rcases place with _ | _ | _ | _ | _ <;> decide

instance (name : String) : Decidable (IsName name) :=
  inferInstanceAs (Decidable (_ ∧ _))

theorem Flag.isName {flag : Flag} (h : flag ∈ ofPlace place) : IsName flag.name := by
  revert flag
  rcases place with _ | _ | _ | _ | _ <;> decide

theorem Switch.ofName?_name {switch : Switch} (h : switch ∈ ofPlace place) :
    Flag.ofName? place switch.name = none ∧ ofName? place switch.name = some switch := by
  revert switch
  rcases place with _ | _ | _ | _ | _ <;> decide

theorem Switch.isName (switch : Switch) : IsName switch.name := by
  cases switch <;> decide

theorem ofText_letters {first : Char} (rest : List Char)
    (h : (Switch.ofLetter? place first).isSome) :
    Word.ofText (String.ofList ('-' :: first :: rest)) = .short (first :: rest) := by
  have hdash : first ≠ '-' := by
    rintro rfl
    revert h
    rcases place with _ | _ | _ | _ | _ <;> decide
  unfold Word.ofText
  rw [String.toList_ofList]
  split <;> simp_all

/-! ### Readings -/

/-- What an argument makes of what was read before. -/
def Argument.step (reading : Reading) : Argument place → Except Problem Reading
  | .joined flag _ text => do
    let given ← reading.settle
    return { given := ← given.put flag text }
  | .apart flag _ text _ => do
    return { given := ← reading.settle, pending := some (flag, some text) }
  | .thrown switch _ => reading.throwSwitch place switch
  | .letters first rest _ => reading.letters place (first :: rest)

theorem words_long {word name : String} {value : Option String}
    (h : Word.ofText word = .long name value) (reading : Reading) (rest : List String) :
    reading.words place (word :: rest) =
      reading.named place name value >>= fun next ↦ next.words place rest := by
  rw [Reading.words.eq_def]
  simp only [h]

theorem words_argument (argument : Argument place) (reading : Reading) (rest : List String) :
    reading.words place (argument.words ++ rest) =
      argument.step reading >>= fun next ↦ next.words place rest := by
  cases argument with
  | joined flag h text =>
    rw [Argument.words, List.cons_append, List.nil_append,
      words_long (ofText_joined (Flag.isName h) text), Reading.named.eq_def]
    simp only [Flag.ofName?_name h]
    rfl
  | apart flag h text hplain =>
    have hvalue : ∀ given : Given,
        Reading.words place { given, pending := some (flag, none) } (text :: rest) =
          Reading.words place { given, pending := some (flag, some text) } rest := by
      intro given
      rw [Reading.words.eq_def]
      simp only [hplain, Reading.awaited?]
    rw [Argument.words, List.cons_append, List.cons_append, List.nil_append,
      words_long (ofText_long (Flag.isName h)), Reading.named.eq_def]
    simp only [Flag.ofName?_name h, Argument.step, bind_assoc, pure_bind, hvalue]
  | thrown switch h =>
    obtain ⟨hflag, hswitch⟩ := Switch.ofName?_name h
    rw [Argument.words, List.cons_append, List.nil_append,
      words_long (ofText_long switch.isName), Reading.named.eq_def]
    simp only [hflag, hswitch]
    rfl
  | letters first more h =>
    rw [Argument.words, List.cons_append, List.nil_append, Reading.words.eq_def]
    simp only [ofText_letters more (h first List.mem_cons_self)]
    rfl

theorem words_arguments (arguments : List (Argument place)) (reading : Reading)
    (rest : List String) :
    reading.words place (arguments.flatMap Argument.words ++ rest) =
      arguments.foldlM Argument.step reading >>= fun next ↦ next.words place rest := by
  induction arguments generalizing reading with
  | nil => simp
  | cons argument arguments ih =>
    rw [List.flatMap_cons, List.append_assoc, words_argument, List.foldlM_cons, bind_assoc]
    simp only [ih]

theorem awaited_of_throwSwitch {reading next : Reading} {switch : Switch}
    (h : reading.throwSwitch place switch = .ok next) : next.awaited? = none := by
  obtain ⟨given, -, h⟩ := bind_eq_ok_iff.mp h
  obtain ⟨given, -, h⟩ := bind_eq_ok_iff.mp h
  cases h
  rfl

theorem awaited_of_letters {letters : List Char} {reading next : Reading}
    (hreading : reading.awaited? = none ∨ letters ≠ [])
    (h : reading.letters place letters = .ok next) : next.awaited? = none := by
  induction letters generalizing reading with
  | nil =>
    cases h
    exact hreading.resolve_right (absurd rfl)
  | cons letter rest ih =>
    rw [Reading.letters] at h
    split at h
    · cases h
    · obtain ⟨middle, hmiddle, h⟩ := bind_eq_ok_iff.mp h
      exact ih (.inl (awaited_of_throwSwitch hmiddle)) h

/-- No argument leaves a value awaited. -/
theorem awaited_of_step {argument : Argument place} {reading next : Reading}
    (h : argument.step reading = .ok next) : next.awaited? = none := by
  cases argument with
  | joined flag _ text =>
    obtain ⟨given, -, h⟩ := bind_eq_ok_iff.mp h
    obtain ⟨given, -, h⟩ := bind_eq_ok_iff.mp h
    cases h
    rfl
  | apart flag _ text _ =>
    obtain ⟨given, -, h⟩ := bind_eq_ok_iff.mp h
    cases h
    rfl
  | thrown switch _ => exact awaited_of_throwSwitch h
  | letters first rest hletters =>
    refine awaited_of_letters (.inr (List.cons_ne_nil _ _)) h

theorem awaited_of_steps {arguments : List (Argument place)} {reading next : Reading}
    (hreading : reading.awaited? = none)
    (h : arguments.foldlM Argument.step reading = .ok next) : next.awaited? = none := by
  induction arguments generalizing reading with
  | nil =>
    cases h
    exact hreading
  | cons argument arguments ih =>
    rw [List.foldlM_cons] at h
    obtain ⟨middle, hmiddle, h⟩ := bind_eq_ok_iff.mp h
    exact ih (awaited_of_step hmiddle) h

/-! ### What is given -/

/-- What an argument gives, by itself. -/
def Argument.give (given : Given) (argument : Argument place) : Except Problem Given :=
  argument.step { given } >>= Reading.settle

theorem settle_step (argument : Argument place) (reading : Reading) :
    argument.step reading >>= Reading.settle =
      reading.settle >>= fun given ↦ argument.give given := by
  have hsettle (given : Given) : Reading.settle { given } = .ok given := rfl
  cases argument with
  | joined flag h text =>
    simp only [Argument.give, Argument.step, bind_assoc, hsettle, ok_bind]
  | apart flag h text hplain =>
    simp only [Argument.give, Argument.step, bind_assoc, hsettle, ok_bind]
  | thrown switch h =>
    simp only [Argument.give, Argument.step, Reading.throwSwitch, bind_assoc, hsettle, ok_bind]
  | letters first rest h =>
    obtain ⟨switch, hswitch⟩ := Option.isSome_iff_exists.mp (h first List.mem_cons_self)
    simp only [Argument.give, Argument.step, Reading.letters, hswitch, Reading.throwSwitch,
      bind_assoc, hsettle, ok_bind]

/-- What arguments give in the end is what each of them gives in its turn. -/
theorem settle_steps (arguments : List (Argument place)) (reading : Reading) :
    arguments.foldlM Argument.step reading >>= Reading.settle =
      reading.settle >>= fun given ↦ arguments.foldlM Argument.give given := by
  induction arguments generalizing reading with
  | nil => simp
  | cons argument arguments ih =>
    simp only [List.foldlM_cons, bind_assoc, ih]
    rw [← bind_assoc, settle_step, bind_assoc]

/-! ### Lines -/

/-- The words of a line, with a command between the arguments. -/
structure Line where
  front : List (Argument none)
  command : Command
  back : List (Argument (some command))

def Line.words (line : Line) : List String :=
  line.front.flatMap Argument.words ++
    line.command.name :: line.back.flatMap Argument.words

/-- What arguments give when nothing was given before them. -/
def given (arguments : List (Argument place)) : Except Problem Given :=
  arguments.foldlM Argument.give {}

theorem given_eq (arguments : List (Argument place)) :
    given arguments = arguments.foldlM Argument.step {} >>= Reading.settle :=
  (settle_steps arguments {}).symm

theorem words_command (command : Command) {reading : Reading} (h : reading.awaited? = none)
    (rest : List String) :
    reading.words none (command.name :: rest) = .ok (reading, some (command, rest)) := by
  have hword : Word.ofText command.name = .plain command.name := by cases command <;> decide
  have hname : Command.ofName? command.name = some command := by cases command <;> decide
  rw [Reading.words.eq_def]
  simp only [hword, h, hname]
  rfl

/-- The words behind a command are read to their end before those in front of it are looked at for
the last time. -/
theorem parse_words (environment : Environment) (line : Line) :
    Invocation.parse environment line.words = do
      let front ← line.front.foldlM Argument.step {}
      let after ← given line.back
      let _ ← environment.version? after
      let before ← front.settle
      let _ ← environment.version? before
      return Invocation.ofGiven environment line.command (after.orElse before)
        (← environment.version? (after.orElse before)) := by
  unfold Invocation.parse Line.words
  rw [words_arguments]
  cases hfront : line.front.foldlM Argument.step {} with
  | error problem => rfl
  | ok front =>
    have hback := words_arguments line.back {} []
    rw [List.append_nil] at hback
    simp only [ok_bind, words_command line.command (awaited_of_steps rfl hfront), hback, bind_assoc,
      given_eq]
    rfl

/-- A line is understood just when the arguments are, on both sides of the command. -/
theorem parse_words_iff {environment : Environment} {line : Line} {invocation : Invocation} :
    Invocation.parse environment line.words = .ok invocation ↔
      ∃ before after version,
        given line.front = .ok before ∧ given line.back = .ok after ∧
          (∃ found, environment.version? after = .ok found) ∧
          (∃ found, environment.version? before = .ok found) ∧
          environment.version? (after.orElse before) = .ok version ∧
          invocation =
            Invocation.ofGiven environment line.command (after.orElse before) version := by
  rw [parse_words, given_eq line.front]
  simp only [bind_eq_ok_iff]
  constructor
  · rintro ⟨front, hfront, after, hafter, found, hfound, before, hbefore, other, hother, version,
      hversion, hinvocation⟩
    cases hinvocation
    exact ⟨before, after, version, ⟨front, hfront, hbefore⟩, hafter, ⟨found, hfound⟩,
      ⟨other, hother⟩, hversion, rfl⟩
  · rintro ⟨before, after, version, ⟨front, hfront, hbefore⟩, hafter, ⟨found, hfound⟩,
      ⟨other, hother⟩, hversion, rfl⟩
    exact ⟨front, hfront, after, hafter, found, hfound, before, hbefore, other, hother, version,
      hversion, rfl⟩

end CacheCheck.CommandLine
