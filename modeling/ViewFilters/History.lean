/-!
# ViewFilters.History

The queries that were visited, as a browser keeps them: a list of entries and a
cursor on the one being shown.  A push discards the entries after the cursor.
A history may have no entries; the query shown is then empty.
-/

namespace ViewFilters

/-- A query without the question mark that may stand before it. -/
def dropQuestionMark (query : String) : String :=
  match query.toList with
  | '?' :: cs => String.ofList cs
  | _ => query

/-- The queries that were visited, oldest first, and the place of the current one. -/
structure History where
  entries : List String
  cursor : Nat
  deriving DecidableEq

namespace History

/-- A history in which nothing was visited yet. -/
def empty : History := ⟨[], 0⟩

/-- A history that starts at a query. -/
def start (query : String) : History := ⟨[dropQuestionMark query], 0⟩

/-- The query being shown. -/
def current (h : History) : String := h.entries[h.cursor]?.getD ""

/-- Visit a query. -/
def push (h : History) (query : String) : History :=
  ⟨h.entries.take (h.cursor + 1) ++ [query], (h.entries.take (h.cursor + 1)).length⟩

/-- Whether there is an entry before the current one. -/
def canGoBack (h : History) : Bool := 0 < h.cursor

/-- Whether there is an entry after the current one. -/
def canGoForward (h : History) : Bool := h.cursor + 1 < h.entries.length

/-- Go to the entry before the current one, if there is one. -/
def back (h : History) : History := ⟨h.entries, h.cursor - 1⟩

/-- Go to the entry after the current one, if there is one. -/
def forward (h : History) : History :=
  if h.canGoForward then ⟨h.entries, h.cursor + 1⟩ else h

/-! ## the current entry -/

@[simp] theorem current_push (h : History) (query : String) : (h.push query).current = query := by
  simp [current, push]

@[simp] theorem entries_push (h : History) (query : String) :
    (h.push query).entries = h.entries.take (h.cursor + 1) ++ [query] := rfl

@[simp] theorem entries_forward (h : History) : h.forward.entries = h.entries := by
  simp only [forward]
  split <;> rfl

end History

end ViewFilters
