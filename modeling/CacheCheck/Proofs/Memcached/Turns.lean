import CacheCheck.Memcached.Entries

/-!
Input in pieces. A piece is whole for a server when it is one turn, whatever is kept and whatever
follows it (`IsWhole`). Input that begins with whole pieces is served piece by piece, and what is
behind them then meets a server that has carried them out and nothing else (`takeTurns_flatten`).
So input that is cut off anywhere can be judged by the piece that was cut.
-/

set_option autoImplicit false

namespace CacheCheck.Memcached

theorem Served.after_append (first second : List UInt8) (served : Served) :
    served.after (first ++ second) = (served.after second).after first := by
  simp only [Served.after, List.append_assoc]

/-- Bytes that are one turn of a server, whatever is kept; what follows them is left, and neither
the reply nor the entries depend on it. -/
def IsWhole (turn : Entries → List UInt8 → Turn) (piece : List UInt8) : Prop :=
  ∀ entries, ∃ reply entries', ∀ rest, turn entries (piece ++ rest) = .next reply entries' rest

/-- What a connection comes to in a number of turns: the entries and what is left of the input. -/
inductive Comes (turn : Entries → List UInt8 → Turn) :
    Entries → List UInt8 → Entries → List UInt8 → Prop
  | refl (entries : Entries) (input : List UInt8) : Comes turn entries input entries input
  | head {entries entries' later : Entries} {input reply rest left : List UInt8}
      (hturn : turn entries input = .next reply entries' rest)
      (hlater : Comes turn entries' rest later left) : Comes turn entries input later left

section

variable {turn : Entries → List UInt8 → Turn}
  {shorter : ∀ entries input reply entries' rest,
    turn entries input = .next reply entries' rest → rest.length < input.length}

/-- A piece in front of other input is served as it would be alone. -/
theorem takeTurns_piece (hclosed : ∀ entries, turn entries [] = .last .closed)
    {piece : List UInt8} (hpiece : IsWhole turn piece) (entries : Entries) :
    (takeTurns turn shorter entries piece).ending = .closed ∧
      ∀ rest, takeTurns turn shorter entries (piece ++ rest) =
        (takeTurns turn shorter (takeTurns turn shorter entries piece).entries rest).after
          (takeTurns turn shorter entries piece).reply := by
  obtain ⟨reply, entries', hturn⟩ := hpiece entries
  have halone : takeTurns turn shorter entries piece = ⟨reply, entries', .closed⟩ := by
    have hlast := hturn []
    rw [List.append_nil] at hlast
    rw [takeTurns_next hlast, takeTurns_last (hclosed entries'), Served.after, List.append_nil]
  rw [halone]
  exact ⟨rfl, fun rest ↦ takeTurns_next (hturn rest)⟩

/-- So are any number of pieces. -/
theorem takeTurns_flatten (hclosed : ∀ entries, turn entries [] = .last .closed)
    {pieces : List (List UInt8)} (hpieces : ∀ piece ∈ pieces, IsWhole turn piece)
    (entries : Entries) :
    (takeTurns turn shorter entries pieces.flatten).ending = .closed ∧
      ∀ rest, takeTurns turn shorter entries (pieces.flatten ++ rest) =
        (takeTurns turn shorter (takeTurns turn shorter entries pieces.flatten).entries rest).after
          (takeTurns turn shorter entries pieces.flatten).reply := by
  induction pieces generalizing entries with
  | nil =>
    rw [List.flatten_nil, takeTurns_last (hclosed entries)]
    exact ⟨rfl, fun rest ↦ rfl⟩
  | cons piece others ih =>
    obtain ⟨-, hpiece⟩ := @takeTurns_piece turn shorter hclosed piece
      (hpieces piece List.mem_cons_self) entries
    obtain ⟨hending, hothers⟩ := ih (fun other hmem ↦ hpieces other (List.mem_cons_of_mem _ hmem))
      (takeTurns turn shorter entries piece).entries
    rw [List.flatten_cons, hpiece]
    refine ⟨hending, fun rest ↦ ?_⟩
    rw [List.append_assoc, hpiece, hothers, ← Served.after_append]
    rfl

/-- What is behind whole pieces adds to their reply. -/
theorem reply_take_isPrefix (hclosed : ∀ entries, turn entries [] = .last .closed)
    {pieces : List (List UInt8)} (hpieces : ∀ piece ∈ pieces, IsWhole turn piece)
    (entries : Entries) (count : Nat) (rest : List UInt8) :
    (takeTurns turn shorter entries (pieces.take count).flatten).reply <+:
      (takeTurns turn shorter entries (pieces.flatten ++ rest)).reply := by
  have hcut : pieces.flatten ++ rest =
      (pieces.take count).flatten ++ ((pieces.drop count).flatten ++ rest) := by
    rw [← List.append_assoc, ← List.flatten_append, List.take_append_drop]
  rw [hcut, (takeTurns_flatten hclosed
    (fun piece hmem ↦ hpieces piece (List.mem_of_mem_take hmem)) entries).2]
  exact List.prefix_append _ _

end

end CacheCheck.Memcached
