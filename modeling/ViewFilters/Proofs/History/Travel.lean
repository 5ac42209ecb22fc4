import ViewFilters.History

/-!
# ViewFilters.Proofs.History.Travel

Going back and forward in a history.  `travel` follows a list of turns; it moves
the cursor and leaves the entries alone, so what a place shows depends on the
place only (`current_travel`), and every place before the cursor can be reached
(`exists_travel_cursor`).

A push leaves the cursor on the last entry, and from then on pushes only add
entries (`AtEnd`, `atEnd_push`, `entries_push_of_atEnd`).
-/

namespace ViewFilters.History

/-! ## turns -/

/-- A move of the cursor by one entry. -/
inductive Turn where
  | back
  | forward
  deriving DecidableEq

/-- The history after one turn. -/
def turn (h : History) : Turn → History
  | .back => h.back
  | .forward => h.forward

/-- The history after some turns. -/
def travel (h : History) (ts : List Turn) : History := ts.foldl turn h

theorem travel_cons (h : History) (t : Turn) (ts : List Turn) :
    h.travel (t :: ts) = (h.turn t).travel ts := rfl

theorem travel_append (h : History) (ts us : List Turn) :
    h.travel (ts ++ us) = (h.travel ts).travel us := List.foldl_append

@[simp] theorem entries_turn (h : History) (t : Turn) : (h.turn t).entries = h.entries := by
  cases t with
  | back => rfl
  | forward => exact entries_forward h

@[simp] theorem entries_travel (h : History) (ts : List Turn) :
    (h.travel ts).entries = h.entries := by
  induction ts generalizing h with
  | nil => rfl
  | cons t ts ih => rw [travel_cons, ih, entries_turn]

/-- What is shown at a place does not depend on the way there. -/
theorem current_travel (h : History) (ts : List Turn) :
    (h.travel ts).current = h.entries[(h.travel ts).cursor]?.getD "" := by
  rw [current, entries_travel]

theorem cursor_travel_back (h : History) (n : Nat) :
    (h.travel (List.replicate n .back)).cursor = h.cursor - n := by
  induction n with
  | zero => rfl
  | succ n ih =>
      rw [List.replicate_succ', travel_append]
      change (h.travel (List.replicate n .back)).cursor - 1 = h.cursor - (n + 1)
      rw [ih]
      omega

/-- Every place up to the cursor can be gone back to. -/
theorem exists_travel_cursor {h : History} {place : Nat} (hp : place ≤ h.cursor) :
    ∃ ts, (h.travel ts).cursor = place := by
  refine ⟨List.replicate (h.cursor - place) .back, ?_⟩
  rw [cursor_travel_back]
  omega

/-! ## the newest entry -/

/-- The newest entry is the one being shown. -/
def AtEnd (h : History) : Prop := h.cursor + 1 = h.entries.length

theorem atEnd_push (h : History) (query : String) : (h.push query).AtEnd := by
  simp only [AtEnd, push, List.length_append, List.length_singleton]

/-- From the newest entry a push drops nothing. -/
theorem entries_push_of_atEnd {h : History} (ha : h.AtEnd) (query : String) :
    (h.push query).entries = h.entries ++ [query] := by
  rw [entries_push, ha, List.take_length]

theorem entry_of_atEnd {h : History} (ha : h.AtEnd) : h.entries[h.cursor]? = some h.current := by
  have hlt : h.cursor < h.entries.length := by
    rw [← ha]
    exact Nat.lt_succ_self h.cursor
  rw [current, List.getElem?_eq_getElem hlt, Option.getD_some]

end ViewFilters.History
