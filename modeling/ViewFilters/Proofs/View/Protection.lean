import ViewFilters.Config
import ViewFilters.Proofs.Editor.Protection
import ViewFilters.Proofs.View.Run

/-!
# ViewFilters.Proofs.View.Protection

Filters on protected fields over whole runs, of an editor and of a view.  What
one operation may do to such a filter is `Editor.Spares`; an operation of a view
that asks nothing of the editor leaves it as it is.
-/

namespace ViewFilters

theorem View.spares_operate {β : Type} {ctx : Context} {field : String} (v : View β)
    (op : Operation β) (hp : ctx.policy.isProtected field = true) :
    Editor.Spares ctx field v.editor op.action? (v.operate ctx op).editor := by
  rw [editor_operate]
  cases op.action? with
  | none => exact Editor.spares_refl ctx field v.editor
  | some a => exact Editor.spares_perform v.editor a hp

/-- **Protection**: in every run of an editor or of a view, once a pinned field has
a filter it has one ever after; and each operation on the way spares the filter
on a protected field. -/
theorem protected_filter_spared {β : Type} (ctx : Context) {field : String}
    (hp : ctx.policy.isProtected field = true) :
    (∀ (e : Editor) (as : List Action) (a : Action),
      let before := e.run ctx as
      (ctx.policy.isPinned field = true → e.criteria.on? field ≠ none →
        before.criteria.on? field ≠ none) ∧
      Editor.Spares ctx field before (some a) (before.perform ctx a).state) ∧
    ∀ (v : View β) (ops : List (View.Operation β)) (op : View.Operation β),
      let before := v.run ctx ops
      (ctx.policy.isPinned field = true → v.editor.criteria.on? field ≠ none →
        before.editor.criteria.on? field ≠ none) ∧
      Editor.Spares ctx field before.editor op.action? (before.operate ctx op).editor := by
  constructor
  · intro e as a before
    exact ⟨fun hpinned h => Editor.on?_run_ne_none hpinned h as, Editor.spares_perform before a hp⟩
  · intro v ops op before
    refine ⟨fun hpinned h => ?_, before.spares_operate op hp⟩
    rw [View.editor_run]
    exact Editor.on?_run_ne_none hpinned h _

/-- A list of empty texts takes away neither the filter on a pinned field nor the
one on a field that is not removed alone; clearing everything takes the second. -/
theorem protected_filter_spared_of_emptied :
    let ctx := Config.standard.context.withBlockRemove ["result"]
    let e := (Editor.mount ctx (History.start "?project_id=p&result=q&page=3")).1
    let empty (field : String) : Action := .updateNamed field "in" (some ";")
    ctx.policy.isPinned "project_id" = true ∧ e.criteria.on? "project_id" ≠ none ∧
      (e.run ctx [empty "project_id", .clearAll]).criteria.on? "project_id" ≠ none ∧
      ctx.policy.isProtected "result" = true ∧ ctx.policy.isPinned "result" = false ∧
      e.criteria.on? "result" ≠ none ∧ e.AsksToRemove (empty "result") "result" ∧
      (e.perform ctx (empty "result")).state.criteria = e.criteria ∧
      (e.perform ctx (empty "result")).state.history = e.history ∧
      (e.perform ctx .clearAll).state.criteria.on? "result" = none := by
  intro ctx e empty
  have hpinned : ctx.policy.isPinned "project_id" = true := by decide
  have hprotected : ctx.policy.isProtected "result" = true := by decide
  have hunpinned : ctx.policy.isPinned "result" = false := by decide
  have hon : e.criteria.on? "project_id" ≠ none ∧ e.criteria.on? "result" ≠ none := by
    decide +kernel
  have hasks : e.AsksToRemove (empty "result") "result" :=
    Or.inr ⟨.isIn, some (.list ["", ""]), rfl, by simp [Value.isEmpty]⟩
  have hproject := (@protected_filter_spared Unit ctx "project_id"
    (Policy.isProtected_of_isPinned hpinned)).1 e
  have hresult := (@protected_filter_spared Unit ctx "result" hprotected).1 e []
  simp only [Editor.run_nil] at hresult
  -- from here on the editor counts as any other, so that nothing is evaluated
  clear_value e
  have hkept := (hproject [empty "project_id", .clearAll] .clearAll).1 hpinned hon.1
  obtain ⟨hcriteria, hhistory⟩ := (hresult (empty "result")).2.refused _ rfl hasks
  have hcleared := ((hresult .clearAll).2.lost hunpinned hon.2).2 rfl
  exact ⟨hpinned, hon.1, hkept, hprotected, hunpinned, hon.2, hasks, hcriteria, hhistory, hcleared⟩

end ViewFilters
