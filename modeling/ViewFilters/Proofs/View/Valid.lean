import ViewFilters.Proofs.Editor.Opening
import ViewFilters.Proofs.View.Project
import ViewFilters.Proofs.View.Run

/-!
# ViewFilters.Proofs.View.Valid

At every moment of every use there is at most one filter on a field, and each
filter is one that can be built: on a field that is neither empty nor a key of
the pagination, with an operator that the field's family takes and a value that
is not empty and has the shape that the operator wants.

A filter gets into a selection by being read from a query, by scoping a view to
its project, or by an operation that asks for it.  All three go through
`Filter.build` and then through `Selection.put`.
-/

namespace ViewFilters

/-! ## mounting -/

theorem View.editor_mount {β : Type} (ctx : Context) (h : History) (now : Nat) :
    (mount ctx h now : View β × List Event).1.editor =
      { (Editor.mount ctx h).1 with
        criteria := (keepToProject ctx (Criteria.ofQuery ctx h.current).1).1 } := by
  simp only [mount, Editor.criteria_mount]

theorem View.valid_mount {β : Type} (ctx : Context) (h : History) (now : Nat) :
    Selection.Valid ctx.catalog
      (mount ctx h now : View β × List Event).1.editor.criteria.filters := by
  rw [editor_mount]
  exact (linkable_keepToProject (Criteria.linkable_ofQuery ctx h.current)).selection

/-! ## operations -/

namespace Editor

variable {ctx : Context} {e : Editor} {a : Action} {c : Criteria}

theorem Change.valid (hc : Change ctx e a c)
    (h : Selection.Valid ctx.catalog e.criteria.filters) :
    Selection.Valid ctx.catalog c.filters := by
  cases hc with
  | put ha hv hb => exact h.put (Filter.valid_of_build hb)
  | without ha hp hf => exact h.without _
  | clear ha => exact h.filter _
  | page ha hn => exact h
  | pageSize ha hn => exact h

theorem valid_run (h : Selection.Valid ctx.catalog e.criteria.filters) (as : List Action) :
    Selection.Valid ctx.catalog (e.run ctx as).criteria.filters :=
  criteria_run_of_change (P := fun c => Selection.Valid ctx.catalog c.filters) h
    (fun _ _ _ hc hvalid => hc.valid hvalid) as

end Editor

theorem View.valid_run {β : Type} {ctx : Context} {v : View β}
    (h : Selection.Valid ctx.catalog v.editor.criteria.filters) (ops : List (Operation β)) :
    Selection.Valid ctx.catalog (v.run ctx ops).editor.criteria.filters := by
  rw [editor_run]
  exact Editor.valid_run h _

/-- **Validity**: whatever is done with an editor or a view, and whether or not it
succeeds, no two filters are on one field and each could be built as it is. -/
theorem one_valid_filter_per_field {β : Type} (ctx : Context) :
    (∀ (o : Opening) (as : List Action),
      Selection.Valid ctx.catalog ((o.editor ctx).run ctx as).criteria.filters) ∧
    ∀ (h : History) (now : Nat) (ops : List (View.Operation β)),
      Selection.Valid ctx.catalog ((View.mount ctx h now).1.run ctx ops).editor.criteria.filters :=
  ⟨fun o as => Editor.valid_run (o.valid ctx) as,
    fun h now ops => View.valid_run (View.valid_mount ctx h now) ops⟩

end ViewFilters
