import ViewFilters.Proofs.Editor.Outcome
import ViewFilters.View

/-!
# ViewFilters.Proofs.View.Session

A view in use.  A session is a view together with what has passed between it and
its surroundings:

* the tickets that it issued, oldest first;
* the responses that were handed in, each with its ticket;
* the time of the last operation that was answered with a change.

A move is an operation, a request or a response; `run` makes a list of them, in
any order.  A response goes to any ticket that was issued, at any later time,
more than once or never.
-/

namespace ViewFilters

/-- What a response is shown as. -/
def Listing.ofResponse {β : Type} : Except String β → Listing β
  | .ok body => .loaded body
  | .error reason => .failed reason

/-- What can be done with a view. -/
inductive Move (β : Type) where
  | edit (action : Action) (now : Nat)
  | poll (now : Nat)
  | fetchNow (send : Request → Except String β)
  /-- Hand in a response to the ticket of a number, if it was issued. -/
  | complete (number : Nat) (response : Except String β)

/-- A view in use. -/
structure Session (β : Type) where
  view : View β
  issued : List Ticket
  answered : List (Ticket × Except String β)
  marked : Nat

namespace Session

variable {β : Type}

/-- A session with a view that was just mounted. -/
def start (ctx : Context) (h : History) (now : Nat) : Session β :=
  ⟨(View.mount ctx h now).1, [], [], now⟩

/-- The session after one move. -/
def move (ctx : Context) (s : Session β) : Move β → Session β
  | .edit action now =>
    let step := s.view.edit ctx action now
    let marked := match step.result with
      | .ok true => now
      | _ => s.marked
    { s with view := step.state, marked }
  | .poll now =>
    match s.view.poll now with
    | (view, some ticket) => { s with view, issued := s.issued ++ [ticket] }
    | (view, none) => { s with view }
  | .fetchNow send =>
    let step := s.view.fetchNow send
    let ticket := step.result.1
    { s with
      view := step.state
      issued := s.issued ++ [ticket]
      answered := s.answered ++ [(ticket, send ticket.request)] }
  | .complete number response =>
    match s.issued[number]? with
    | some ticket =>
      { s with
        view := (s.view.complete ticket response).state
        answered := s.answered ++ [(ticket, response)] }
    | none => s

/-- The session after some moves. -/
def run (ctx : Context) (s : Session β) (ms : List (Move β)) : Session β := ms.foldl (move ctx) s

theorem run_append (ctx : Context) (s : Session β) (ms more : List (Move β)) :
    s.run ctx (ms ++ more) = (s.run ctx ms).run ctx more :=
  List.foldl_append

/-- What holds of a session and is kept by every move holds after every run. -/
theorem run_induction {ctx : Context} {P : Session β → Prop} {s : Session β} (h : P s)
    (hmove : ∀ s m, P s → P (move ctx s m)) (ms : List (Move β)) : P (s.run ctx ms) := by
  induction ms generalizing s with
  | nil => exact h
  | cons m ms ih => exact ih (hmove s m h)

/-! ## what the moves are made of -/

/-- The session after a ticket for the current criteria was issued. -/
def issue (s : Session β) : Session β :=
  { s with
    view := s.view.demand.1
    issued := s.issued ++ [s.view.demand.2] }

/-- The session after a response to a ticket was handed in. -/
def answer (s : Session β) (ticket : Ticket) (response : Except String β) : Session β :=
  { s with
    view := (s.view.complete ticket response).state
    answered := s.answered ++ [(ticket, response)] }

/-- Polling issues a ticket when one is due, and does nothing otherwise. -/
theorem move_poll (ctx : Context) (s : Session β) (now : Nat) :
    s.move ctx (.poll now) = if s.view.gate.isDue now then s.issue else s := by
  unfold move View.poll FetchGate.poll
  by_cases h : s.view.gate.isDue now = true
  · simp only [h, if_true]
    rfl
  · simp only [h]
    rfl

/-- Fetching right away issues a ticket and hands in the response to it. -/
theorem move_fetchNow (ctx : Context) (s : Session β) (send : Request → Except String β) :
    s.move ctx (.fetchNow send) =
      s.issue.answer s.view.demand.2 (send s.view.demand.2.request) := rfl

theorem move_complete (ctx : Context) (s : Session β) (number : Nat) (response : Except String β) :
    s.move ctx (.complete number response) =
      match s.issued[number]? with
      | some ticket => s.answer ticket response
      | none => s := rfl

end Session

/-! ## operations -/

namespace View

variable {β : Type}

/-- An operation that is answered with a change starts a new generation; any
other leaves the gate and the request as they were. -/
theorem edit_cases (ctx : Context) (v : View β) (a : Action) (now : Nat) :
    ((v.edit ctx a now).result = .ok true ∧
        (v.edit ctx a now).state = ⟨(v.editor.perform ctx a).state, v.gate.mark now, v.listing⟩) ∨
      ((v.edit ctx a now).result ≠ .ok true ∧
        (v.edit ctx a now).state = ⟨(v.editor.perform ctx a).state, v.gate, v.listing⟩ ∧
        (v.edit ctx a now).state.request = v.request) := by
  have hresult : (v.edit ctx a now).result = (v.editor.perform ctx a).result := rfl
  rw [hresult]
  by_cases h : (v.editor.perform ctx a).result = .ok true
  · refine Or.inl ⟨h, ?_⟩
    simp only [edit, h]
  · have hcriteria := Editor.criteria_of_result_ne h
    have hstate : (v.edit ctx a now).state =
        ⟨(v.editor.perform ctx a).state, v.gate, v.listing⟩ := by
      unfold edit
      dsimp only
      split
      · contradiction
      · rfl
    refine Or.inr ⟨h, hstate, ?_⟩
    rw [hstate, request, request, hcriteria]

/-- An operation that fails leaves the view as it was. -/
theorem state_edit_of_error {ctx : Context} {v : View β} {a : Action} {err : FilterError}
    (now : Nat) (h : (v.editor.perform ctx a).result = .error err) :
    (v.edit ctx a now).state = v := by
  obtain ⟨hchanged, -⟩ | ⟨-, hkept, -⟩ := v.edit_cases ctx a now
  · have hchanged : (v.editor.perform ctx a).result = .ok true := hchanged
    rw [h] at hchanged
    contradiction
  · rw [hkept, Editor.state_of_error h]

/-- So does one that leaves the editor as it was, and says that nothing changed. -/
theorem state_edit_eq_self {ctx : Context} {v : View β} {a : Action} (now : Nat)
    (hresult : (v.editor.perform ctx a).result = .ok false)
    (hstate : (v.editor.perform ctx a).state = v.editor) : (v.edit ctx a now).state = v := by
  obtain ⟨hchanged, -⟩ | ⟨-, hkept, -⟩ := v.edit_cases ctx a now
  · have hchanged : (v.editor.perform ctx a).result = .ok true := hchanged
    rw [hresult] at hchanged
    exact absurd (Except.ok.inj hchanged) Bool.false_ne_true
  · rw [hkept, hstate]

/-- A response is shown when its ticket is of the current generation, and is
otherwise as if it had not come. -/
theorem complete_cases (v : View β) (t : Ticket) (response : Except String β) :
    (t.generation = v.gate.generation ∧ (v.complete t response).result = .applied ∧
        (v.complete t response).state = { v with listing := .ofResponse response }) ∨
      (t.generation ≠ v.gate.generation ∧ (v.complete t response).result = .stale ∧
        (v.complete t response).state = v) := by
  unfold complete FetchGate.isCurrent
  by_cases h : v.gate.generation = t.generation
  · rw [if_pos (decide_eq_true h)]
    cases response with
    | ok body => exact Or.inl ⟨h.symm, rfl, rfl⟩
    | error reason => exact Or.inl ⟨h.symm, rfl, rfl⟩
  · rw [if_neg (by simpa using h)]
    exact Or.inr ⟨Ne.symm h, rfl, rfl⟩

theorem result_complete (v : View β) (t : Ticket) (response : Except String β) :
    (v.complete t response).result =
      if t.generation = v.gate.generation then .applied else .stale := by
  cases v.complete_cases t response with
  | inl happlied => rw [if_pos happlied.1, happlied.2.1]
  | inr hstale => rw [if_neg hstale.1, hstale.2.1]

theorem state_of_applied {v : View β} {t : Ticket} {response : Except String β}
    (h : (v.complete t response).result = .applied) :
    t.generation = v.gate.generation ∧
      (v.complete t response).state = { v with listing := .ofResponse response } := by
  obtain ⟨hgeneration, -, hstate⟩ | ⟨-, hresult, -⟩ := v.complete_cases t response
  · exact ⟨hgeneration, hstate⟩
  · rw [hresult] at h
    contradiction

theorem state_of_stale {v : View β} {t : Ticket} {response : Except String β}
    (h : (v.complete t response).result = .stale) : (v.complete t response).state = v := by
  obtain ⟨-, hresult, -⟩ | ⟨-, -, hstate⟩ := v.complete_cases t response
  · rw [hresult] at h
    contradiction
  · exact hstate

/-- A response is at most shown. -/
theorem editor_gate_complete (v : View β) (t : Ticket) (response : Except String β) :
    (v.complete t response).state.editor = v.editor ∧
      (v.complete t response).state.gate = v.gate := by
  obtain ⟨-, -, hstate⟩ | ⟨-, -, hstate⟩ := v.complete_cases t response
  · rw [hstate]
    exact ⟨rfl, rfl⟩
  · rw [hstate]
    exact ⟨rfl, rfl⟩

/-- A request that is due goes out. -/
theorem poll_of_isDue {v : View β} {now : Nat} (h : v.gate.isDue now = true) :
    (v.poll now).2 = some ⟨v.gate.generation, v.request⟩ := by
  unfold poll FetchGate.poll
  rw [if_pos h]

/-- What is fetched right away is shown. -/
theorem fetchNow_eq (v : View β) (send : Request → Except String β) :
    (v.fetchNow send).result = (⟨v.gate.generation, v.request⟩, .applied) ∧
      (v.fetchNow send).state =
        { v.demand.1 with listing := .ofResponse (send v.request) } := by
  have hfetch : v.fetchNow send =
      (v.demand.1.complete v.demand.2 (send v.request)).map (v.demand.2, ·) := rfl
  rw [hfetch]
  cases v.demand.1.complete_cases v.demand.2 (send v.request) with
  | inl happlied =>
      obtain ⟨-, hresult, hstate⟩ := happlied
      refine ⟨?_, hstate⟩
      rw [Step.map, hresult]
      rfl
  | inr hstale =>
      obtain ⟨hne, -⟩ := hstale
      exact absurd rfl hne

end View

end ViewFilters
