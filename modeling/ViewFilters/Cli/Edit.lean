import ViewFilters.View

/-!
# ViewFilters.Cli.Edit

Changes of a link that the program offers, each a short list of operations of
the editor.  They are carried out in order up to the first that fails.
-/

namespace ViewFilters.Cli

/-- A change of a link. -/
inductive Edit where
  /-- Filter on a field.  No values ask for no filter. -/
  | set (field operator : String) (values : List String)
  | remove (field : String)
  | clear
  /-- Go to a page, perhaps after changing the page size. -/
  | page (number : UInt32) (size : Option UInt32)
  deriving DecidableEq

/-- The operations of an edit, in order. -/
def Edit.actions : Edit → List Action
  | set field operator values =>
    [.updateNamed field operator (if values = [] then none else some (joinList values))]
  | remove field => [.remove field]
  | clear => [.clearAll]
  | page number size => (size.map Action.setPageSize).toList ++ [.setPage number]

/-- A view of a query, as it is when it is opened. -/
def openView (ctx : Context) (query : String) : View Json × List Event :=
  View.mount ctx (History.start query) 0

/-- Carry out operations in order, up to the first that fails.  The answer is
whether any of them changed something. -/
def carryOut {β : Type} (ctx : Context) (v : View β) :
    List Action → Step (View β) (Except FilterError Bool)
  | [] => ⟨v, [], .ok false⟩
  | a :: as =>
    let first := v.edit ctx a 0
    match first.result with
    | .error e => ⟨first.state, first.events, .error e⟩
    | .ok changed =>
      let rest := carryOut ctx first.state as
      ⟨rest.state, first.events ++ rest.events, rest.result.map (changed || ·)⟩

end ViewFilters.Cli
