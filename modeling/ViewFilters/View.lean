import ViewFilters.Editor.Action
import ViewFilters.FetchGate
import ViewFilters.Request

/-!
# ViewFilters.View

A filtered list view: an editor, the gate for its requests and what the list
shows.  Data flows

```
control → editor → link
             ↓
          request → gate → backend → list
```

and on mounting the other way, from the link to the editor.

1. A view of a project has a filter on it from the start, unless the link
   brings one.
2. Every change of the criteria starts a new generation.
3. A response is shown only if it belongs to the current generation.  A failed
   one changes what the list shows and nothing else.
-/

namespace ViewFilters

/-- The field that keeps a view to its project. -/
def projectField : String := "project_id"

/-- What the list shows, for responses of type `β`. -/
inductive Listing (β : Type) where
  /-- Nothing was requested yet. -/
  | idle
  /-- A request is on its way. -/
  | loading (generation : Nat)
  | loaded (body : β)
  | failed (reason : String)

/-- A request to be sent, and the generation that it was made in. -/
structure Ticket where
  generation : Nat
  request : Request
  deriving DecidableEq

/-- What becomes of a response. -/
inductive Completion where
  /-- It is shown. -/
  | applied
  /-- It came too late. -/
  | stale
  deriving DecidableEq

/-- A filtered list view, for responses of type `β`. -/
structure View (β : Type) where
  editor : Editor
  gate : FetchGate
  listing : Listing β

namespace View

variable {β : Type}

/-! ## mounting -/

/-- The criteria kept to the project of the context, if they are not already. -/
def keepToProject (ctx : Context) (c : Criteria) : Criteria × List Event :=
  match ctx.project, c.on? projectField with
  | some project, none =>
    match Filter.build ctx.catalog projectField .eq (.text project) with
    | .ok f => (c.put f, [])
    | .error e => (c, [.scopeFailed project e])
  | _, _ => (c, [])

/-- A view of the link being shown, with its first request waiting. -/
def mount (ctx : Context) (history : History) (now : Nat) : View β × List Event :=
  let (editor, events) := Editor.mount ctx history
  let (criteria, more) := keepToProject ctx editor.criteria
  (⟨{ editor with criteria }, (FetchGate.new ctx.debounce).mark now, .idle⟩, events ++ more)

/-! ## editing -/

/-- Carry out an operation of the editor.  A positive answer is a change. -/
def edit (ctx : Context) (v : View β) (action : Action) (now : Nat) :
    Step (View β) (Except FilterError Bool) :=
  let step := v.editor.perform ctx action
  let gate := match step.result with
    | .ok true => v.gate.mark now
    | _ => v.gate
  ⟨⟨step.state, gate, v.listing⟩, step.events, step.result⟩

/-! ## requests and responses -/

/-- The request for the current criteria. -/
def request (v : View β) : Request := Request.ofCriteria v.editor.criteria

/-- The request to send now, if the quiet time has passed. -/
def poll (v : View β) (now : Nat) : View β × Option Ticket :=
  match v.gate.poll now with
  | (gate, some generation) =>
    ({ v with gate, listing := .loading generation }, some ⟨generation, v.request⟩)
  | (gate, none) => ({ v with gate }, none)

/-- The request to send right away.  What waited for the quiet time waits no more. -/
def demand (v : View β) : View β × Ticket :=
  let (gate, generation) := v.gate.take
  ({ v with gate, listing := .loading generation }, ⟨generation, v.request⟩)

/-- Show the response to a ticket, unless the view has changed since. -/
def complete (v : View β) (ticket : Ticket) (response : Except String β) :
    Step (View β) Completion :=
  if v.gate.isCurrent ticket.generation then
    match response with
    | .ok body => ⟨{ v with listing := .loaded body }, [], .applied⟩
    | .error reason =>
      ⟨{ v with listing := .failed reason }, [.fetchFailed reason], .applied⟩
  else ⟨v, [.staleDiscarded ticket.generation], .stale⟩

/-- Send the request right away to a backend that answers at once. -/
def fetchNow (v : View β) (send : Request → Except String β) :
    Step (View β) (Ticket × Completion) :=
  let (v', ticket) := v.demand
  (v'.complete ticket (send ticket.request)).map (ticket, ·)

/-! ## for display -/

/-- The query of the link to the criteria. -/
def query (ctx : Context) (v : View β) : String := v.editor.query ctx

/-- The filters in words. -/
def chips (v : View β) : List String := v.editor.criteria.filters.map Filter.chip

end View

end ViewFilters
