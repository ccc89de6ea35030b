import CacheCheck.Failure
import CacheCheck.Log

/-!
Clients. A client is a state machine that answers two calls: it stores a value under a key, or
reads the value stored under one. Nothing is assumed of its answers; they may depend on every
call before.
-/

set_option autoImplicit false

namespace CacheCheck

/-- A call on a client. -/
inductive Call
  | set (key value : String)
  | get (key : String)
  deriving DecidableEq, Repr

/-- The answer to a call. -/
inductive Answer
  | stored (result : Except Failure Unit)
  | read (result : Except Failure (Option String))
  deriving Repr

/-- A client over states `σ`. A read of a key that was never written should be `none`. -/
structure Client (σ : Type) where
  backend : Backend
  set : String → String → σ → Except Failure Unit × σ
  get : String → σ → Except Failure (Option String) × σ
  /-- The log lines that come before a call. -/
  announce : Call → List LogLine

namespace Client

variable {σ τ : Type}

/-- Makes one call. -/
def answer (client : Client σ) (call : Call) (state : σ) : Answer × σ :=
  match call with
  | .set key value =>
    let (result, state) := client.set key value state
    (.stored result, state)
  | .get key =>
    let (result, state) := client.get key state
    (.read result, state)

end Client

/-- A client together with the state it is in, whatever the type of its states. -/
structure Connected : Type 1 where
  {State : Type}
  client : Client State
  state : State

end CacheCheck
