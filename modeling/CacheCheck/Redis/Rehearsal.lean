import CacheCheck.Resp.Command
import CacheCheck.Resp.Reply

/-!
Rehearsed connections. A rehearsal is a queue of commands it expects, each with the response it
will give; whatever is sent takes the next one off the queue, and is refused unless it is exactly
what was expected. A strict rehearsal objects when it ends before its queue does, unless it
refused something before.
-/

set_option autoImplicit false

namespace CacheCheck.Redis

open Resp (Command Reply)

/-- An expected command, as the bytes it is sent as, and its response: a fault, or the replies,
of which a single command needs exactly one. -/
structure Expectation where
  packed : List UInt8
  response : Except Fault (List Reply)

namespace Expectation

/-- A write and its acknowledgement. -/
def set (key value : String) : Expectation :=
  ⟨(Command.set key value).pack, .ok [.okay]⟩

/-- A read and its answer; `none` is nil. -/
def get (key : String) (answer : Option String) : Expectation :=
  ⟨(Command.get key).pack, .ok [Reply.ofText? answer]⟩

end Expectation

/-- A rehearsed connection. -/
structure Rehearsal where
  queue : List Expectation
  /-- Whether a queue that is not used up at the end is objected to. -/
  strict : Bool := false

namespace Rehearsal

/-- What the refusal of one command says. -/
def unexpected (detail : String) : Fault :=
  .described .client "TEST" (some detail)

/-- Sends bytes: takes the next expectation off the queue and compares. -/
def send (r : Rehearsal) (packed : List UInt8) : Except Fault (List Reply) × Rehearsal :=
  match r.queue with
  | [] => (.error (unexpected "unexpected command"), { r with strict := false })
  | next :: rest =>
    if packed = next.packed then (next.response, { r with queue := rest })
    else
      (.error <| unexpected <|
        "unexpected command: expected=" ++ Utf8.decodeLossy next.packed ++
          ", actual=" ++ Utf8.decodeLossy packed,
        { queue := rest, strict := false })

/-- The replies, unless there is an error in one of them. -/
def checkAll (replies : List Reply) : Except Fault (List Reply) :=
  match Reply.firstErrorIn? replies with
  | some line => .error line.fault
  | none => .ok replies

/-- Sends a command and takes its one reply. -/
def query (r : Rehearsal) (command : Command) : Except Fault Reply × Rehearsal :=
  match r.send command.pack with
  | (.error fault, r) => (.error fault, r)
  | (.ok [reply], r) =>
    match reply.firstError? with
    | some line => (.error line.fault, r)
    | none => (.ok reply, r)
  | (.ok _, r) =>
    (.error (.described .client "expected exactly one value configured as response" none),
      { r with strict := false })

/-- Sends a pipeline and takes all replies. An empty pipeline is not sent. -/
def pipeline (r : Rehearsal) (commands : List Command) : Except Fault (List Reply) × Rehearsal :=
  if commands.isEmpty then (.ok [], r)
  else
    let (response, r) := r.send (Command.packAll commands)
    (response.bind checkAll, r)

/-- Sends a command on a second handle, which is then let go. What the second handle refuses is
not held against the first. -/
def queryAside (r : Rehearsal) (command : Command) : Except Fault Reply × Rehearsal :=
  let (reply, after) := r.query command
  (reply, { after with strict := r.strict })

/-- The objection raised at the end. -/
def objection? (r : Rehearsal) : Option String :=
  if r.strict && !r.queue.isEmpty then
    some (toString r.queue.length ++ " expected command(s) were never sent")
  else none

end Rehearsal

end CacheCheck.Redis
