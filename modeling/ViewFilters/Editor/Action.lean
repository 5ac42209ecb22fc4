import ViewFilters.Editor

/-!
# ViewFilters.Editor.Action

The operations of an editor as data, so that a session is a list of them.
`Editor.perform` carries out one and `Editor.run` a list.
-/

namespace ViewFilters

/-- An operation of an editor. -/
inductive Action where
  | update (field : String) (op : Operator) (value : Option Value)
  | updateNamed (field name : String) (raw : Option String)
  | remove (field : String)
  | clearAll
  | setPage (page : UInt32)
  | setPageSize (size : UInt32)
  | setDraftField (field : String)
  | setDraftOperator (op : Operator)
  | setDraftValue (value : String)
  | applyDraft

namespace Editor

/-- Carry out an operation.  The answer is whether the criteria changed, or for
the draft whether it was applied. -/
def perform (ctx : Context) (e : Editor) : Action → Step Editor (Except FilterError Bool)
  | .update field op value => e.update ctx field op value
  | .updateNamed field name raw => e.updateNamed ctx field name raw
  | .remove field => (e.remove ctx field).map .ok
  | .clearAll => (e.clearAll ctx).map .ok
  | .setPage page => (e.setPage ctx page).map .ok
  | .setPageSize size => (e.setPageSize ctx size).map .ok
  | .setDraftField field => (e.setDraftField ctx field).stay.map .ok
  | .setDraftOperator op => (e.setDraftOperator op).stay.map .ok
  | .setDraftValue value => (e.setDraftValue value).stay.map .ok
  | .applyDraft => e.applyDraft ctx

/-- Carry out operations in order, each on what the one before it left. -/
def run (ctx : Context) : Editor → List Action → Editor
  | e, [] => e
  | e, a :: as => run ctx (e.perform ctx a).state as

@[simp] theorem run_nil (ctx : Context) (e : Editor) : e.run ctx [] = e := rfl

theorem run_append (ctx : Context) (e : Editor) (as bs : List Action) :
    e.run ctx (as ++ bs) = (e.run ctx as).run ctx bs := by
  induction as generalizing e with
  | nil => rfl
  | cons a as ih => exact ih _

end Editor

end ViewFilters
