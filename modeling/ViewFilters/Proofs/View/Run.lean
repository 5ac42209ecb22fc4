import ViewFilters.Proofs.View.Session

/-!
# ViewFilters.Proofs.View.Run

The operations of a view as data, so that a use of one is a list of them.  A
session keeps account of the tickets and hands a response to one of those; here
a response may come with any ticket at all.

Only operations of the editor reach the editor.  What a run of a view leaves
there is what the editor's own operations in it would (`editor_run`):

```
edit a   poll   complete t r   edit b   fetchNow send
   ↓                              ↓
   a                              b
```
-/

namespace ViewFilters.View

variable {β : Type}

/-- An operation of a view. -/
inductive Operation (β : Type) where
  | edit (action : Action) (now : Nat)
  | poll (now : Nat)
  | fetchNow (send : Request → Except String β)
  | complete (ticket : Ticket) (response : Except String β)

/-- What an operation of a view asks of the editor. -/
def Operation.action? : Operation β → Option Action
  | edit action _ => some action
  | poll _ | fetchNow _ | complete _ _ => none

/-- Carry out an operation. -/
def operate (ctx : Context) (v : View β) : Operation β → View β
  | .edit action now => (v.edit ctx action now).state
  | .poll now => (v.poll now).1
  | .fetchNow send => (v.fetchNow send).state
  | .complete ticket response => (v.complete ticket response).state

/-- Carry out operations in order, each on what the one before it left. -/
def run (ctx : Context) (v : View β) (ops : List (Operation β)) : View β := ops.foldl (operate ctx) v

theorem run_cons (ctx : Context) (v : View β) (op : Operation β) (ops : List (Operation β)) :
    v.run ctx (op :: ops) = (v.operate ctx op).run ctx ops := rfl

/-! ## the editor of a view -/

@[simp] theorem editor_poll (v : View β) (now : Nat) : (v.poll now).1.editor = v.editor := by
  unfold poll
  split <;> rfl

@[simp] theorem editor_fetchNow (v : View β) (send : Request → Except String β) :
    (v.fetchNow send).state.editor = v.editor := by
  obtain ⟨-, hstate⟩ := v.fetchNow_eq send
  rw [hstate]
  rfl

theorem editor_operate (ctx : Context) (v : View β) (op : Operation β) :
    (v.operate ctx op).editor = v.editor.run ctx op.action?.toList := by
  cases op with
  | edit action now => rfl
  | poll now => exact v.editor_poll now
  | fetchNow send => exact v.editor_fetchNow send
  | complete ticket response => exact (v.editor_gate_complete ticket response).1

/-- The editor after a run of a view is the editor after its own operations in it. -/
theorem editor_run (ctx : Context) (v : View β) (ops : List (Operation β)) :
    (v.run ctx ops).editor = v.editor.run ctx (ops.filterMap Operation.action?) := by
  induction ops generalizing v with
  | nil => rfl
  | cons op ops ih =>
      have hactions : (op :: ops).filterMap Operation.action? =
          op.action?.toList ++ ops.filterMap Operation.action? := by
        cases h : op.action? <;> simp [h]
      rw [run_cons, ih, editor_operate, hactions, Editor.run_append]

/-! ## requests -/

/-- A ticket that is issued carries the current request. -/
theorem request_of_poll {v : View β} {now : Nat} {t : Ticket} (h : (v.poll now).2 = some t) :
    t.request = v.request := by
  unfold poll at h
  split at h
  · rw [← Option.some.inj h]
  · contradiction

end ViewFilters.View
