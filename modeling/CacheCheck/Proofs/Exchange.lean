import CacheCheck.Check

/-!
Exchanges with a client: a call together with the answer it got. A client that is given calls one
after the other answers each in the state that the calls before it left, whatever it answered to
them. What is said of a client in this way holds for every state machine behind it.

A conversation that ends with the first exchange of some kind is the part of a longer one up to
and including that exchange (`upTo`).
-/

set_option autoImplicit false

namespace CacheCheck

/-! ### The part of a list that ends with the first entry of a kind -/

section UpTo

variable {α β : Type}

/-- The entries of a list up to and including the first that passes a test; all of them when none
does. -/
def upTo (test : α → Bool) : List α → List α
  | [] => []
  | a :: rest => if test a then [a] else a :: upTo test rest

theorem upTo_cons_of_pos {test : α → Bool} {a : α} (rest : List α) (h : test a = true) :
    upTo test (a :: rest) = [a] := by
  simp [upTo, h]

theorem upTo_cons_of_neg {test : α → Bool} {a : α} (rest : List α) (h : test a = false) :
    upTo test (a :: rest) = a :: upTo test rest := by
  simp [upTo, h]

/-- Entries that do not pass the test are all there, whatever follows them. -/
theorem upTo_append_of_none {test : α → Bool} {first : List α} (rest : List α)
    (hfirst : ∀ b ∈ first, test b = false) :
    upTo test (first ++ rest) = first ++ upTo test rest := by
  induction first with
  | nil => rfl
  | cons b first ih =>
    rw [List.cons_append, upTo_cons_of_neg _ (hfirst b List.mem_cons_self),
      ih fun c hc ↦ hfirst c (List.mem_cons_of_mem b hc), List.cons_append]

theorem upTo_append_cons {test : α → Bool} {first : List α} {a : α} (rest : List α)
    (hfirst : ∀ b ∈ first, test b = false) (h : test a = true) :
    upTo test (first ++ a :: rest) = first ++ [a] := by
  rw [upTo_append_of_none _ hfirst, upTo_cons_of_pos rest h]

theorem upTo_isPrefix (test : α → Bool) (entries : List α) : upTo test entries <+: entries := by
  induction entries with
  | nil => exact List.prefix_refl []
  | cons a rest ih =>
    by_cases h : test a = true
    · rw [upTo_cons_of_pos rest h]
      exact ⟨rest, rfl⟩
    · rw [upTo_cons_of_neg rest (by simpa using h)]
      exact List.cons_prefix_cons.mpr ⟨rfl, ih⟩

theorem upTo_eq_self_of_none {test : α → Bool} {entries : List α}
    (h : ∀ a ∈ entries, test a = false) : upTo test entries = entries := by
  have hall := upTo_append_of_none [] h
  rwa [upTo, List.append_nil] at hall

/-- Only the last entry can pass the test. -/
theorem test_eq_false_of_mem_dropLast_upTo {test : α → Bool} {entries : List α} {a : α}
    (ha : a ∈ (upTo test entries).dropLast) : test a = false := by
  induction entries with
  | nil => cases ha
  | cons b rest ih =>
    by_cases h : test b = true
    · rw [upTo_cons_of_pos rest h] at ha
      cases ha
    · have hb : test b = false := by simpa using h
      rw [upTo_cons_of_neg rest hb] at ha
      cases hrest : upTo test rest with
      | nil =>
        rw [hrest] at ha
        cases ha
      | cons c tail =>
        rw [hrest, List.dropLast_cons_of_ne_nil (List.cons_ne_nil c tail)] at ha
        rcases List.mem_cons.mp ha with rfl | htail
        · exact hb
        · exact ih (hrest ▸ htail)

/-- Entries are left out only behind one that passes the test. -/
theorem upTo_eq_self_or_getLast? (test : α → Bool) (entries : List α) :
    upTo test entries = entries ∨ ∃ a, (upTo test entries).getLast? = some a ∧ test a = true := by
  induction entries with
  | nil => exact Or.inl rfl
  | cons b rest ih =>
    by_cases h : test b = true
    · exact Or.inr ⟨b, by rw [upTo_cons_of_pos rest h]; rfl, h⟩
    · rw [upTo_cons_of_neg rest (by simpa using h)]
      rcases ih with hall | ⟨a, hlast, ha⟩
      · exact Or.inl (by rw [hall])
      · exact Or.inr ⟨a, by rw [List.getLast?_cons, hlast]; rfl, ha⟩

theorem upTo_map (test : β → Bool) (f : α → β) (entries : List α) :
    upTo test (entries.map f) = (upTo (fun a ↦ test (f a)) entries).map f := by
  induction entries with
  | nil => rfl
  | cons a rest ih =>
    by_cases h : test (f a) = true
    · simp [upTo, h]
    · simp [upTo, h, ih]

end UpTo

/-! ### Conversations -/

/-- A call and its answer. -/
structure Exchange where
  call : Call
  answer : Answer

/-- The key that a call is about. -/
def Call.key : Call → String
  | .set key _ | .get key => key

namespace Exchange

/-- A write that was accepted. -/
def isWrite (exchange : Exchange) : Bool :=
  match exchange.answer with
  | .stored (.ok ()) => true
  | _ => false

/-- A read that was answered with a value, or with the news that there is none. -/
def isRead (exchange : Exchange) : Bool :=
  match exchange.answer with
  | .read (.ok _) => true
  | _ => false

/-- The value seen last, when an exchange follows those that came before. -/
def observe (seen : Option String) (exchange : Exchange) : Option String :=
  match exchange.answer with
  | .read (.ok actual) => actual
  | _ => seen

end Exchange

namespace Client

variable {σ : Type}

@[simp] theorem answer_set (client : Client σ) (key value : String) (state : σ) :
    client.answer (.set key value) state =
      (.stored (client.set key value state).1, (client.set key value state).2) := rfl

@[simp] theorem answer_get (client : Client σ) (key : String) (state : σ) :
    client.answer (.get key) state =
      (.read (client.get key state).1, (client.get key state).2) := rfl

/-- The exchanges that calls come to when all of them are made, in order. -/
def exchanges (client : Client σ) : List Call → σ → List Exchange
  | [], _ => []
  | call :: rest, state =>
    ⟨call, (client.answer call state).1⟩ :: client.exchanges rest (client.answer call state).2

/-- The state that calls leave a client in. -/
def after (client : Client σ) (calls : List Call) (state : σ) : σ :=
  calls.foldl (fun state call ↦ (client.answer call state).2) state

@[simp] theorem after_nil (client : Client σ) (state : σ) : client.after [] state = state := rfl

@[simp] theorem after_cons (client : Client σ) (call : Call) (rest : List Call) (state : σ) :
    client.after (call :: rest) state = client.after rest (client.answer call state).2 := rfl

@[simp] theorem map_call_exchanges (client : Client σ) (calls : List Call) (state : σ) :
    (client.exchanges calls state).map Exchange.call = calls := by
  induction calls generalizing state with
  | nil => rfl
  | cons call rest ih => simp [exchanges, ih]

/-- Keys are given their own names, where every write is accepted. -/
theorem exchanges_writes {client : Client σ}
    (hset : ∀ key value state, (client.set key value state).1 = .ok ()) (keys : List String)
    (state : σ) :
    client.exchanges (keys.map fun key ↦ .set key key) state =
      keys.map fun key ↦ ⟨.set key key, .stored (.ok ())⟩ := by
  induction keys generalizing state with
  | nil => rfl
  | cons key rest ih =>
    rw [List.map_cons, exchanges, ih, List.map_cons, answer_set, hset]

/-- Keys are read, where reads find what the state has and leave it there. -/
theorem exchanges_reads {client : Client σ} (found : σ → String → Option String)
    (hget : ∀ key state, (client.get key state).1 = .ok (found state key))
    (hkeeps : ∀ key state, found (client.get key state).2 = found state) (keys : List String)
    (state : σ) :
    client.exchanges (keys.map .get) state =
      keys.map fun key ↦ ⟨.get key, .read (.ok (found state key))⟩ := by
  induction keys generalizing state with
  | nil => rfl
  | cons key rest ih =>
    rw [List.map_cons, exchanges, ih, List.map_cons, answer_get, hget, hkeeps]

/-- Each call is answered in the state that the calls in front of it left. -/
theorem exchanges_eq_mapIdx (client : Client σ) (calls : List Call) (state : σ) :
    client.exchanges calls state = calls.mapIdx fun index call ↦
      ⟨call, (client.answer call (client.after (calls.take index) state)).1⟩ := by
  induction calls generalizing state with
  | nil => rfl
  | cons call rest ih =>
    rw [exchanges, ih, List.mapIdx_cons]
    rfl

/-- What is answered to the first calls does not depend on those that follow. -/
theorem exchanges_eq_of_isPrefix (client : Client σ) {calls : List Call} {state : σ}
    {made : List Exchange} (h : made <+: client.exchanges calls state) :
    made = client.exchanges (made.map Exchange.call) state := by
  induction made generalizing calls state with
  | nil => rfl
  | cons exchange rest ih =>
    cases calls with
    | nil => exact absurd (List.prefix_nil.mp h) (List.cons_ne_nil exchange rest)
    | cons call others =>
      obtain ⟨rfl, hrest⟩ := List.cons_prefix_cons.mp h
      rw [List.map_cons, exchanges, ← ih hrest]

end Client

/-- The exchange of an event, if it is one. -/
def Event.exchange? : Event → Option Exchange
  | .called call answer => some ⟨call, answer⟩
  | _ => none

namespace Check.Progress

variable {σ : Type}

/-- The exchanges of a check so far, in order. -/
def exchanges (progress : Progress σ) : List Exchange :=
  progress.events.filterMap Event.exchange?

/-- The calls of a check so far, in order. -/
def calls (progress : Progress σ) : List Call :=
  progress.exchanges.map Exchange.call

end Check.Progress

end CacheCheck
