import CacheCheck.Client
import CacheCheck.Redis.Rehearsal

/-!
Clients over a Redis connection: a plain write and a plain read, on whatever carries commands.
-/

set_option autoImplicit false

namespace CacheCheck.Redis

open Resp (Command Reply)

variable {σ : Type}

/-- A client that sends its commands through `query`. A write accepts any reply that is not an
error. -/
def client (query : Command → σ → Except Fault Reply × σ) (backend : Backend) : Client σ where
  backend
  set key value state :=
    let (reply, state) := query (.set key value) state
    match reply with
    | .ok _ => (.ok (), state)
    | .error fault => (.error (.command backend (.redis fault)), state)
  get key state :=
    let (reply, state) := query (.get key) state
    match reply.bind Reply.toText? with
    | .ok value => (.ok value, state)
    | .error fault => (.error (.command backend (.redis fault)), state)
  announce
    | .set key value =>
      [⟨.debug, backend.name ++ ": SET " ++ quote key ++ " " ++ quote value⟩]
    | .get key => [⟨.debug, backend.name ++ ": GET " ++ quote key⟩]

/-- The client of a rehearsal. -/
def Rehearsal.client (backend : Backend) : Client Rehearsal :=
  Redis.client (fun command r ↦ r.query command) backend

end CacheCheck.Redis
