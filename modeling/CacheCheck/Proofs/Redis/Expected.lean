import CacheCheck.Proofs.Resp.Packing
import CacheCheck.Redis.Rehearsal

/-!
A rehearsal compares bytes, and that is as good as comparing commands. Since packed commands and
packed pipelines can be told apart, what is sent is taken for the expected one exactly when its
commands are those that were expected, in the same order and with the same arguments; a single
command and the pipeline of it alone are not told apart. Anything else is refused, and the refusal
shows both (`send_tellsApart`).
-/

set_option autoImplicit false

namespace CacheCheck.Redis

open Resp (Command Reply)

/-- What is sent to a connection in one go, or expected by a rehearsal. -/
inductive Submission
  | command (command : Command)
  | pipeline (commands : List Command)

namespace Submission

/-- The commands of a submission, in order. -/
def commands : Submission → List Command
  | command single => [single]
  | pipeline several => several

/-- A submission as it is sent. -/
def packed : Submission → List UInt8
  | command single => single.pack
  | pipeline several => Command.packAll several

theorem packed_eq (submission : Submission) :
    submission.packed = Command.packAll submission.commands := by
  cases submission with
  | command single => exact (Command.packAll_singleton single).symm
  | pipeline several => rfl

/-- What is sent determines the commands. -/
theorem packed_inj {first second : Submission} :
    first.packed = second.packed ↔ first.commands = second.commands := by
  rw [packed_eq, packed_eq, Command.packAll_inj]

end Submission

namespace Rehearsal

/-- The fault of sending something else than was expected, which shows both. -/
def refusal (expected actual : List UInt8) : Fault :=
  unexpected <| "unexpected command: expected=" ++ Utf8.decodeLossy expected ++
    ", actual=" ++ Utf8.decodeLossy actual

theorem kind_refusal (expected actual : List UInt8) :
    (refusal expected actual).kind = .client := rfl

theorem send_of_eq {next : Expectation} (rest : List Expectation) (strict : Bool)
    {packed : List UInt8} (h : packed = next.packed) :
    send ⟨next :: rest, strict⟩ packed = (next.response, ⟨rest, strict⟩) :=
  if_pos h

theorem send_of_ne {next : Expectation} (rest : List Expectation) (strict : Bool)
    {packed : List UInt8} (h : packed ≠ next.packed) :
    send ⟨next :: rest, strict⟩ packed =
      (.error (refusal next.packed packed), ⟨rest, false⟩) :=
  if_neg h

/-- How rehearsals tell commands apart by the bytes they are sent as. -/
structure TellsApart : Prop where
  pack_eq_iff (arguments arguments' : List (List UInt8)) :
    (Command.mk arguments).pack = (Command.mk arguments').pack ↔ arguments = arguments'
  packAll_eq_iff (commands commands' : List Command) :
    Command.packAll commands = Command.packAll commands' ↔ commands = commands'
  /-- A command is sent as the pipeline of it alone, and as no other. -/
  pack_eq_packAll_iff (command : Command) (commands : List Command) :
    command.pack = Command.packAll commands ↔ commands = [command]
  /-- What is sent gets the response it was expected with, or is refused, by its commands. -/
  send_eq (expected submitted : Submission) (response : Except Fault (List Reply))
    (rest : List Expectation) (strict : Bool) :
    send ⟨⟨expected.packed, response⟩ :: rest, strict⟩ submitted.packed =
      if submitted.commands = expected.commands then (response, ⟨rest, strict⟩)
      else (.error (refusal expected.packed submitted.packed), ⟨rest, false⟩)
  /-- A response that is not itself such a refusal is given for what was expected alone. -/
  response_iff (expected submitted : Submission) {response : Except Fault (List Reply)}
    (rest : List Expectation) (strict : Bool) :
    response ≠ .error (refusal expected.packed submitted.packed) →
      ((send ⟨⟨expected.packed, response⟩ :: rest, strict⟩ submitted.packed).1 = response ↔
        submitted.commands = expected.commands)

/-- Rehearsals take what was expected, and refuse everything else. -/
theorem send_tellsApart : TellsApart where
  pack_eq_iff arguments arguments' := by
    rw [Command.pack_inj, Command.mk.injEq]
  packAll_eq_iff commands commands' := Command.packAll_inj
  pack_eq_packAll_iff command commands := by
    rw [← Command.packAll_singleton, Command.packAll_inj, eq_comm]
  send_eq expected submitted response rest strict := by
    split
    · next hsame => exact send_of_eq rest strict (Submission.packed_inj.mpr hsame)
    · next hother =>
      exact send_of_ne rest strict fun heq ↦ hother (Submission.packed_inj.mp heq)
  response_iff expected submitted response rest strict hresponse := by
    constructor
    · intro hgiven
      refine Decidable.byContradiction fun hother ↦ ?_
      have hne : submitted.packed ≠ expected.packed := fun heq ↦
        hother (Submission.packed_inj.mp heq)
      rw [send_of_ne rest strict hne] at hgiven
      exact hresponse hgiven.symm
    · intro hsame
      rw [send_of_eq rest strict (Submission.packed_inj.mpr hsame)]

end Rehearsal

end CacheCheck.Redis
