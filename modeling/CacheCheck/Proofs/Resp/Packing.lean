import CacheCheck.Proofs.Text.Decimal
import CacheCheck.Proofs.Text.Utf8
import CacheCheck.Resp.Command

/-!
Packed commands can be told apart. The bytes of a command say where they end: what follows them is
determined, whatever the arguments hold, since each is taken by its length and the digits of a
length end at a carriage return, which is no digit. A code of that kind stays one when code words
are counted and put one behind the other (`SelfDelimiting.flatMap_append`), and without a count as
long as no word is empty (`SelfDelimiting.flatMap_injective`). Arguments are joined in the first way
and the commands of a pipeline in the second.
-/

set_option autoImplicit false

namespace CacheCheck.Resp

/-! ### Codes that say where they end -/

section SelfDelimiting

variable {α β : Type}

/-- A code word and what is behind it are both determined by the two together. -/
def SelfDelimiting (code : α → List β) : Prop :=
  ∀ a b rest rest', code a ++ rest = code b ++ rest' → a = b ∧ rest = rest'

namespace SelfDelimiting

variable {code : α → List β}

/-- So are as many code words as are announced. -/
theorem flatMap_append (h : SelfDelimiting code) {words words' : List α} {rest rest' : List β}
    (hlength : words.length = words'.length)
    (heq : words.flatMap code ++ rest = words'.flatMap code ++ rest') :
    words = words' ∧ rest = rest' := by
  induction words generalizing words' with
  | nil =>
    obtain rfl : words' = [] := List.length_eq_zero_iff.mp hlength.symm
    exact ⟨rfl, heq⟩
  | cons word words ih =>
    cases words' with
    | nil => cases hlength
    | cons word' words' =>
      rw [List.flatMap_cons, List.flatMap_cons, List.append_assoc, List.append_assoc] at heq
      obtain ⟨rfl, hwords⟩ := h word word' _ _ heq
      obtain ⟨rfl, hrest⟩ := ih (Nat.succ.inj hlength) hwords
      exact ⟨rfl, hrest⟩

/-- Code words that fill all of a sequence are determined by it, where none of them is empty. -/
theorem flatMap_injective (h : SelfDelimiting code) (hsome : ∀ word, code word ≠ []) :
    Function.Injective fun words : List α ↦ words.flatMap code := by
  intro words
  induction words with
  | nil =>
    intro words' heq
    cases words' with
    | nil => rfl
    | cons word' words' =>
      have hempty : code word' = [] := (List.append_eq_nil_iff.mp heq.symm).1
      exact absurd hempty (hsome word')
  | cons word words ih =>
    intro words' heq
    cases words' with
    | nil =>
      have hempty : code word = [] := (List.append_eq_nil_iff.mp heq).1
      exact absurd hempty (hsome word)
    | cons word' words' =>
      obtain ⟨rfl, hwords⟩ := h word word' _ _ heq
      exact congrArg (word :: ·) (ih hwords)

end SelfDelimiting

/-- What stands before the first separator, and what behind it. -/
theorem append_cons_inj_of_not_mem {separator : β} {first first' rest rest' : List β}
    (h : separator ∉ first) (h' : separator ∉ first')
    (heq : first ++ separator :: rest = first' ++ separator :: rest') :
    first = first' ∧ rest = rest' := by
  induction first generalizing first' with
  | nil =>
    cases first' with
    | nil => exact ⟨rfl, List.tail_eq_of_cons_eq heq⟩
    | cons b first' =>
      obtain rfl : separator = b := List.head_eq_of_cons_eq heq
      exact absurd List.mem_cons_self h'
  | cons a first ih =>
    cases first' with
    | nil =>
      obtain rfl : a = separator := List.head_eq_of_cons_eq heq
      exact absurd List.mem_cons_self h
    | cons b first' =>
      obtain rfl : a = b := List.head_eq_of_cons_eq heq
      obtain ⟨rfl, hrest⟩ := ih (fun hmem ↦ h (List.mem_cons_of_mem a hmem))
        (fun hmem ↦ h' (List.mem_cons_of_mem a hmem)) (List.tail_eq_of_cons_eq heq)
      exact ⟨rfl, hrest⟩

end SelfDelimiting

namespace Command

/-! ### Lengths -/

/-- The digits of a number, as they are sent. -/
def digitBytes (n : Nat) : List UInt8 :=
  (Nat.toDigits 10 n).map fun c ↦ UInt8.ofNat c.toNat

theorem header_eq (mark : Char) (n : Nat) :
    header mark n = UInt8.ofNat mark.toNat :: (digitBytes n ++ [0x0D, 0x0A]) := by
  simp [header, digitBytes]

theorem toNat_of_isDigit {c : Char} (hc : c.isDigit = true) :
    (UInt8.ofNat c.toNat).toNat = c.toNat ∧ 0x0D < c.toNat := by
  simp only [Char.isDigit, Bool.and_eq_true, decide_eq_true_eq] at hc
  have hlow : 48 ≤ c.toNat := hc.1
  have hhigh : c.toNat ≤ 57 := hc.2
  exact ⟨Utf8.toNat_ofNat (by omega), by omega⟩

theorem isDigit_of_mem {n : Nat} {c : Char} (hc : c ∈ Nat.toDigits 10 n) : c.isDigit = true :=
  Nat.isDigit_of_mem_toDigits (by omega) (by omega) hc

theorem return_not_mem_digitBytes (n : Nat) : 0x0D ∉ digitBytes n := by
  intro hmem
  obtain ⟨c, hc, hreturn⟩ := List.mem_map.mp hmem
  obtain ⟨hnat, hlow⟩ := toNat_of_isDigit (isDigit_of_mem hc)
  rw [← hnat, hreturn] at hlow
  exact absurd hlow (by decide)

/-- The digits are read back from their bytes. -/
theorem map_ofNat_digitBytes (n : Nat) :
    (digitBytes n).map (fun b ↦ Char.ofNat b.toNat) = Nat.toDigits 10 n := by
  have hdigit : ∀ c ∈ Nat.toDigits 10 n, Char.ofNat (UInt8.ofNat c.toNat).toNat = c := by
    intro c hc
    rw [(toNat_of_isDigit (isDigit_of_mem hc)).1, Char.ofNat_toNat]
  rw [digitBytes, List.map_map]
  exact (List.map_congr_left hdigit).trans (List.map_id' _)

theorem digitBytes_injective : Function.Injective digitBytes := by
  intro n m heq
  apply Decimal.toDigits_injective
  rw [← map_ofNat_digitBytes, heq, map_ofNat_digitBytes]

/-- A header says where it ends. -/
theorem selfDelimiting_header (mark : Char) : SelfDelimiting (header mark) := by
  intro n m rest rest' heq
  simp only [header_eq, List.cons_append, List.append_assoc, List.nil_append] at heq
  obtain ⟨hdigits, hrest⟩ := append_cons_inj_of_not_mem (return_not_mem_digitBytes n)
    (return_not_mem_digitBytes m) (List.tail_eq_of_cons_eq heq)
  exact ⟨digitBytes_injective hdigits, List.tail_eq_of_cons_eq hrest⟩

/-! ### Commands and pipelines -/

theorem selfDelimiting_packArgument : SelfDelimiting packArgument := by
  intro argument argument' rest rest' heq
  simp only [packArgument, List.append_assoc] at heq
  obtain ⟨hlength, hbody⟩ := selfDelimiting_header '$' _ _ _ _ heq
  obtain ⟨rfl, hend⟩ := List.append_inj hbody hlength
  exact ⟨rfl, List.append_cancel_left hend⟩

theorem selfDelimiting_pack : SelfDelimiting pack := by
  intro command command' rest rest' heq
  simp only [pack, List.append_assoc] at heq
  obtain ⟨hcount, hbody⟩ := selfDelimiting_header '*' _ _ _ _ heq
  obtain ⟨harguments, hrest⟩ := selfDelimiting_packArgument.flatMap_append hcount hbody
  exact ⟨congrArg Command.mk harguments, hrest⟩

theorem pack_ne_nil (command : Command) : command.pack ≠ [] := by
  rw [pack, header_eq]
  exact List.cons_ne_nil _ _

theorem pack_inj {command command' : Command} :
    command.pack = command'.pack ↔ command = command' := by
  constructor
  · intro heq
    exact (selfDelimiting_pack command command' [] [] (congrArg (· ++ []) heq)).1
  · exact congrArg pack

theorem packAll_inj {commands commands' : List Command} :
    packAll commands = packAll commands' ↔ commands = commands' :=
  ⟨fun heq ↦ selfDelimiting_pack.flatMap_injective pack_ne_nil heq, congrArg packAll⟩

/-- A command is sent as the pipeline of it alone. -/
theorem packAll_singleton (command : Command) : packAll [command] = command.pack := by
  rw [packAll, List.flatMap_singleton]

end Command

end CacheCheck.Resp
