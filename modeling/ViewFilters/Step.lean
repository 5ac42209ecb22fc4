import ViewFilters.Event

/-!
# ViewFilters.Step

What an operation on a state does: the state that it leaves, the events that it
reports, in order, and its answer.  An operation that fails is a step too, so
that what it leaves behind can be spoken of.
-/

namespace ViewFilters

/-- What one operation does: the state it leaves, what it reports, its answer. -/
structure Step (σ α : Type) where
  state : σ
  events : List Event
  result : α

/-- The same step with its answer put differently. -/
def Step.map {σ α β : Type} (f : α → β) (s : Step σ α) : Step σ β :=
  ⟨s.state, s.events, f s.result⟩

/-! ## the parts of a mapped step -/

@[simp] theorem Step.state_map {σ α β : Type} (f : α → β) (s : Step σ α) :
    (s.map f).state = s.state := rfl

@[simp] theorem Step.result_map {σ α β : Type} (f : α → β) (s : Step σ α) :
    (s.map f).result = f s.result := rfl

end ViewFilters
