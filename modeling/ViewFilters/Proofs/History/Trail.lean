import ViewFilters.Proofs.History.Travel

/-!
# ViewFilters.Proofs.History.Trail

A history is a browser's.  What a browser keeps is a *trail*: the entry that is
shown, those before it and those after it.

```
            before      current   after
            a … b       c         x … y
push q      a … b c     q
back        a …         b         c x … y
forward     a … b c     x         … y
```

On a trail on which nothing was visited, a push makes the first entry.

Each operation does to the entries and the cursor what it does to the trail
(`visit_toHistory`), so a whole run does (`follow_toHistory`).  What a trail cannot
be, such as a cursor beyond its entries, no history comes to be either
(`follow_eq_trail`).
-/

namespace ViewFilters

/-! ## operations -/

/-- An operation on a history. -/
inductive Visit where
  | push (query : String)
  | turn (t : History.Turn)
  deriving DecidableEq

namespace History

/-- Whether there is an entry to turn to. -/
def canTurn (h : History) : Turn → Bool
  | .back => h.canGoBack
  | .forward => h.canGoForward

/-- The history after an operation, and the answer to a turn: whether the cursor moved. -/
def visit (h : History) : Visit → History × Option Bool
  | .push query => (h.push query, none)
  | .turn t => (h.turn t, some (h.canTurn t))

/-- The history after some operations. -/
def follow (h : History) (vs : List Visit) : History := vs.foldl (fun h v => (h.visit v).1) h

/-- A history that starts at a query, or with nothing visited. -/
def opening : Option String → History
  | some query => start query
  | none => empty

end History

/-! ## trails -/

/-- What a browser keeps of the queries that were visited. -/
inductive Trail where
  | unvisited
  /-- The entries before the current one are the nearest first. -/
  | visiting (before : List String) (current : String) (after : List String)

namespace Trail

/-- Visit a query: the current entry is now before it, and nothing is after it. -/
def push : Trail → String → Trail
  | unvisited, query => visiting [] query []
  | visiting before current _, query => visiting (current :: before) query []

/-- Move one entry across the current place, if there is one. -/
def turn? : Trail → History.Turn → Option Trail
  | visiting (b :: before) current after, .back => some (visiting before b (current :: after))
  | visiting before current (x :: after), .forward => some (visiting (current :: before) x after)
  | _, _ => none

/-- The trail after an operation, and the answer to a turn: whether there was an entry to
turn to.  Without one nothing changes. -/
def visit (t : Trail) : Visit → Trail × Option Bool
  | .push query => (t.push query, none)
  | .turn turn => ((t.turn? turn).getD t, some (t.turn? turn).isSome)

/-- The trail after some operations. -/
def follow (t : Trail) (vs : List Visit) : Trail := vs.foldl (fun t v => (t.visit v).1) t

/-- A trail that starts at a query, or with nothing visited. -/
def opening : Option String → Trail
  | some query => visiting [] (dropQuestionMark query) []
  | none => unvisited

/-- The entries in order, with the cursor on the current one. -/
def toHistory : Trail → History
  | unvisited => History.empty
  | visiting before current after => ⟨before.reverse ++ current :: after, before.length⟩

/-! ## one operation -/

theorem push_toHistory (t : Trail) (query : String) :
    t.toHistory.push query = (t.push query).toHistory := by
  cases t with
  | unvisited => rfl
  | visiting before current after =>
      have htake : before.reverse.take (before.length + 1) = before.reverse :=
        List.take_of_length_le (by simp)
      simp [toHistory, push, History.push, List.take_append, htake]

theorem turn_toHistory (t : Trail) (turn : History.Turn) :
    t.toHistory.turn turn = ((t.turn? turn).getD t).toHistory ∧
      t.toHistory.canTurn turn = (t.turn? turn).isSome := by
  cases t with
  | unvisited => cases turn <;> exact ⟨rfl, rfl⟩
  | visiting before current after =>
      cases turn with
      | back =>
          cases before <;>
            simp [toHistory, turn?, History.turn, History.back, History.canTurn, History.canGoBack]
      | forward =>
          cases after <;>
            simp [toHistory, turn?, History.turn, History.forward, History.canTurn,
              History.canGoForward]

/-- **Steps**: an operation does to the history of a trail what it does to the trail, and is
answered alike. -/
theorem visit_toHistory (t : Trail) (v : Visit) :
    t.toHistory.visit v = ((t.visit v).1.toHistory, (t.visit v).2) := by
  cases v with
  | push query => rw [History.visit, push_toHistory, visit]
  | turn turn =>
      obtain ⟨hturn, hcan⟩ := t.turn_toHistory turn
      rw [History.visit, hturn, hcan, visit]

/-- **Runs**: so it is with many operations, one after another. -/
theorem follow_toHistory (t : Trail) (vs : List Visit) :
    t.toHistory.follow vs = (t.follow vs).toHistory := by
  induction vs generalizing t with
  | nil => rfl
  | cons v vs ih =>
      have hstep : (t.toHistory.visit v).1 = (t.visit v).1.toHistory := by rw [visit_toHistory]
      rw [History.follow, List.foldl_cons, hstep]
      exact ih (t.visit v).1

theorem opening_toHistory (first : Option String) :
    History.opening first = (opening first).toHistory := by
  cases first <;> rfl

/-! ## what is so of every trail -/

/-- The cursor is on an entry as soon as there is one. -/
theorem getElem?_cursor_toHistory (t : Trail) (hne : t.toHistory.entries ≠ []) :
    t.toHistory.entries[t.toHistory.cursor]? = some t.toHistory.current := by
  cases t with
  | unvisited => contradiction
  | visiting before current after => simp [toHistory, History.current]

/-- Going back, where one can, is undone by going forward. -/
theorem forward_back_toHistory (t : Trail) (hback : t.toHistory.canGoBack = true) :
    t.toHistory.back.canGoForward = true ∧ t.toHistory.back.forward = t.toHistory := by
  cases t with
  | unvisited => contradiction
  | visiting before current after =>
      cases before with
      | nil => contradiction
      | cons b before => simp [toHistory, History.back, History.forward, History.canGoForward]

end Trail

/-- No operation touches the entries up to the cursor. -/
theorem History.take_prefix_visit (h : History) (v : Visit) :
    h.entries.take (h.cursor + 1) <+: (h.visit v).1.entries := by
  cases v with
  | push query => exact List.prefix_append _ _
  | turn t =>
      rw [visit, entries_turn]
      exact List.take_prefix _ _

/-! ## the whole -/

/-- **A browser's history**: after any operations on a history that starts at a query, or with
nothing visited, its entries and its cursor are those of the trail on which the same operations
were carried out, and each further operation leads both to the same again, with the same answer.
Once there is an entry the cursor is on one, and that is the one being shown; a turn back that
moved is undone by a turn forward; and no operation touches the entries up to the cursor. -/
theorem History.follow_eq_trail (first : Option String) (vs : List Visit) :
    let h := (History.opening first).follow vs
    let t := (Trail.opening first).follow vs
    h = t.toHistory ∧
    (∀ v, (h.visit v).1 = (t.visit v).1.toHistory ∧ (h.visit v).2 = (t.visit v).2) ∧
    (h.entries ≠ [] → h.cursor < h.entries.length ∧ h.entries[h.cursor]? = some h.current) ∧
    ((h.visit (.turn .back)).2 = some true →
      let back := (h.visit (.turn .back)).1
      (back.visit (.turn .forward)).2 = some true ∧ (back.visit (.turn .forward)).1 = h) ∧
    ∀ v, h.entries.take (h.cursor + 1) <+: (h.visit v).1.entries := by
  intro h t
  have hsim : h = t.toHistory := by
    change (History.opening first).follow vs = ((Trail.opening first).follow vs).toHistory
    rw [Trail.opening_toHistory, Trail.follow_toHistory]
  refine ⟨hsim, fun v => ?_, fun hne => ?_, fun hback => ?_, h.take_prefix_visit⟩
  · rw [hsim, Trail.visit_toHistory]
    exact ⟨rfl, rfl⟩
  · have hentry : h.entries[h.cursor]? = some h.current := by
      rw [hsim] at hne ⊢
      exact t.getElem?_cursor_toHistory hne
    exact ⟨(List.getElem?_eq_some_iff.1 hentry).1, hentry⟩
  · have hcan : t.toHistory.canGoBack = true := hsim ▸ Option.some.inj hback
    obtain ⟨hforward, hsame⟩ := t.forward_back_toHistory hcan
    rw [hsim]
    exact ⟨congrArg some hforward, hsame⟩

end ViewFilters
