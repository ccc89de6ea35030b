import CacheCheck.Client
import CacheCheck.Store

/-!
A cache in memory, which can be told to misbehave, and which keeps a record of every call.
-/

set_option autoImplicit false

namespace CacheCheck

namespace Memory

/-- A way to misbehave. -/
inductive Defect
  /-- Acknowledge writes without storing them. -/
  | dropWrites
  /-- Append a text to every value read. -/
  | corruptReads (suffix : String)
  /-- Do not store what is written under keys that begin with a text. -/
  | dropStem (stem : String)
  deriving DecidableEq, Repr

/-- Whether a write under a key is lost. -/
def Defect.drops (defect : Option Defect) (key : String) : Bool :=
  match defect with
  | some .dropWrites => true
  | some (.dropStem stem) => stem.toList.isPrefixOf key.toList
  | _ => false

/-- What a value has become when it is read. -/
def Defect.onRead (defect : Option Defect) (value : String) : String :=
  match defect with
  | some (.corruptReads suffix) => value ++ suffix
  | _ => value

/-- The line kept of a call. -/
def callLine : Call → String
  | .set key value => "set " ++ key ++ " " ++ value
  | .get key => "get " ++ key

end Memory

/-- The cache: its entries, its defect, and the lines of the calls so far, the latest first. -/
structure Memory where
  entries : Store String := .empty
  defect : Option Memory.Defect := none
  recent : List String := []

namespace Memory

/-- Stores a value past the defect and the record. -/
def seed (m : Memory) (key value : String) : Memory :=
  { m with entries := m.entries.insert key value }

/-- The lines of the calls so far, in order. -/
def calls (m : Memory) : List String :=
  m.recent.reverse

def set (key value : String) (m : Memory) : Except Failure Unit × Memory :=
  let entries :=
    if Defect.drops m.defect key then m.entries else m.entries.insert key value
  (.ok (), { m with entries, recent := callLine (.set key value) :: m.recent })

def get (key : String) (m : Memory) : Except Failure (Option String) × Memory :=
  (.ok ((m.entries.get? key).map (Defect.onRead m.defect)),
    { m with recent := callLine (.get key) :: m.recent })

/-- The cache as a client that passes for one of the given backend. -/
def client (backend : Backend) : Client Memory where
  backend
  set := set
  get := get
  announce _ := []

end Memory

end CacheCheck
