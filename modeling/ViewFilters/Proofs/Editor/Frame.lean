import ViewFilters.Config
import ViewFilters.Proofs.Editor.Answer
import ViewFilters.Proofs.Editor.Intent

/-!
# ViewFilters.Proofs.Editor.Frame

What the operations on the criteria leave alone, when they do anything at all:

```
operation        filters   page    page size   draft
update, remove   changed   first   kept        kept
clearAll         changed   first   kept        emptied
setPage          kept      given   kept        kept
setPageSize      kept      first   given       kept
```

A removal does nothing when the field is protected or without a filter, be it asked for by
itself or by way of an empty value (`filters_eq_iff_of_asksToRemove`).  The page is then kept
too.

Together with the exact answers this is what a view relies on when it decides whether to
send a request (`direct_answer_exact`).
-/

namespace ViewFilters

/-! ## kinds of operations -/

namespace Action

/-- The field on which an operation puts a filter, or from which it takes one away. -/
def field? : Action → Option String
  | update field _ _ | updateNamed field _ _ | remove field => some field
  | clearAll | setPage _ | setPageSize _ => none
  | setDraftField _ | setDraftOperator _ | setDraftValue _ | applyDraft => none

/-- An operation on the criteria, and not on the draft or by way of it. -/
def IsDirect : Action → Prop
  | update _ _ _ | updateNamed _ _ _ | remove _ => True
  | clearAll | setPage _ | setPageSize _ => True
  | setDraftField _ | setDraftOperator _ | setDraftValue _ | applyDraft => False

end Action

namespace Editor

variable {ctx : Context} {e : Editor} {a : Action} {c : Criteria} {field : String} {n : UInt32}

/-! ## the draft -/

theorem draft_settle (ctx : Context) (e : Editor) (c : Criteria) (changed : Bool) :
    (e.settle ctx c changed).state.draft = e.draft :=
  draft_commit ctx _

theorem draft_remove (ctx : Context) (e : Editor) (field : String) :
    (e.remove ctx field).state.draft = e.draft := by
  unfold remove
  split
  · rfl
  split
  · rfl
  · exact draft_settle ..

theorem draft_update (ctx : Context) (e : Editor) (field : String) (op : Operator)
    (value : Option Value) : (e.update ctx field op value).state.draft = e.draft := by
  unfold update
  split
  · exact draft_remove ctx e field
  split
  · rfl
  · rw [Step.state_map, draft_settle]

/-- Of the operations on the criteria only clearing everything has to do with the draft. -/
theorem draft_perform (h : a.IsDirect) (hclear : a ≠ .clearAll) :
    (e.perform ctx a).state.draft = e.draft := by
  cases a with
  | update field op value => exact draft_update ctx e field op value
  | updateNamed field name raw => exact draft_update ctx e field _ _
  | remove field => exact draft_remove ctx e field
  | clearAll => contradiction
  | setPage n =>
      simp only [perform, setPage, Step.state_map]
      split
      · rfl
      · exact draft_settle ..
  | setPageSize n =>
      simp only [perform, setPageSize, Step.state_map]
      split
      · rfl
      · exact draft_settle ..
  | setDraftField | setDraftOperator | setDraftValue | applyDraft => contradiction

/-! ## the filters, the page and its size -/

/-- A change of the filters goes to the first page. -/
theorem Change.page_of_filters_ne (hc : Change ctx e a c) (h : c.filters ≠ e.criteria.filters) :
    c.page = 1 := by
  cases hc with
  | put | without | clear | pageSize => rfl
  | page => contradiction

theorem page_of_filters_ne (h : (e.perform ctx a).state.criteria.filters ≠ e.criteria.filters) :
    (e.perform ctx a).state.criteria.page = 1 := by
  refine criteria_perform_of_change
    (P := fun c => c.filters ≠ e.criteria.filters → c.page = 1) ?_ ?_ h
  · exact fun hne => absurd rfl hne
  · exact fun c hc hne => hc.page_of_filters_ne hne

/-- The page size is changed on its own account only. -/
theorem Change.pageSize_of_ne (hc : Change ctx e a c) (h : c.pageSize ≠ e.criteria.pageSize) :
    ∃ n, a = .setPageSize n := by
  cases hc with
  | put | without | clear | page => contradiction
  | @pageSize n ha hn => exact ⟨n, ha⟩

theorem exists_setPageSize_of_ne
    (h : (e.perform ctx a).state.criteria.pageSize ≠ e.criteria.pageSize) :
    ∃ n, a = .setPageSize n := by
  refine criteria_perform_of_change
    (P := fun c => c.pageSize ≠ e.criteria.pageSize → ∃ n, a = .setPageSize n) ?_ ?_ h
  · exact fun hne => absurd rfl hne
  · exact fun c hc hne => hc.pageSize_of_ne hne

theorem filters_perform_of_paging (h : a = .setPage n ∨ a = .setPageSize n) :
    (e.perform ctx a).state.criteria.filters = e.criteria.filters := by
  rw [filters_perform]
  obtain rfl | rfl := h <;> rfl

/-! ## removals -/

/-- Nothing is done about a field that is protected or has no filter. -/
theorem remove_of_vain
    (h : ctx.policy.isProtected field = true ∨ e.criteria.on? field = none) :
    (e.remove ctx field).state = e ∧ (e.remove ctx field).result = false := by
  unfold remove
  split
  · exact ⟨rfl, rfl⟩
  · next hp =>
    rw [h.resolve_left hp]
    exact ⟨rfl, rfl⟩

/-- A removal takes the filter away and goes to the first page, unless nothing is done. -/
theorem criteria_remove (ctx : Context) (e : Editor) (field : String) :
    (e.remove ctx field).state.criteria =
      if ctx.policy.isProtected field = true ∨ e.criteria.on? field = none then e.criteria
      else (e.criteria.without field).withPage 1 := by
  split
  · next h => rw [(remove_of_vain h).1]
  · next h =>
    rw [not_or] at h
    obtain ⟨f, hon⟩ := Option.ne_none_iff_exists'.1 h.2
    rw [remove, if_neg h.1, hon, criteria_settle]

/-- What an operation on the criteria asks for does not depend on the editor. -/
theorem asUpdate?_of_isDirect (ha : a.IsDirect) (e e' : Editor) :
    e.asUpdate? a = e'.asUpdate? a := by
  cases a with
  | applyDraft => contradiction
  | _ => rfl

theorem perform_eq_update {op : Operator} {value : Option Value} (ha : a.IsDirect)
    (hask : e.asUpdate? a = some (field, op, value)) :
    (e.perform ctx a).state = (e.update ctx field op value).state ∧
      (e.perform ctx a).result = (e.update ctx field op value).result := by
  cases a with
  | update | updateNamed =>
      simp only [asUpdate?, Option.some.injEq, Prod.mk.injEq] at hask
      obtain ⟨rfl, rfl, rfl⟩ := hask
      exact ⟨rfl, rfl⟩
  | remove | clearAll | setPage | setPageSize => contradiction
  | setDraftField | setDraftOperator | setDraftValue | applyDraft => contradiction

/-- Asking for a field to be without a filter comes to removing the filter there. -/
theorem perform_eq_remove (h : e.AsksToRemove a field) (ha : a.IsDirect) :
    (e.perform ctx a).state = (e.remove ctx field).state ∧
      (e.perform ctx a).result = .ok (e.remove ctx field).result := by
  obtain rfl | ⟨op, value, hask, hempty⟩ := h
  · exact ⟨rfl, rfl⟩
  have hnone : value.filter (!·.isEmpty) = none := by
    simpa [Option.filter_eq_none_iff] using hempty
  have hupdate : e.update ctx field op value = (e.remove ctx field).map .ok := by
    simp only [update, hnone]
  obtain ⟨hstate, hresult⟩ := @perform_eq_update ctx e a field op value ha hask
  rw [hstate, hresult, hupdate]
  exact ⟨rfl, rfl⟩

/-- Asking for it in vain leaves everything as it is. -/
theorem perform_of_vain (h : e.AsksToRemove a field) (ha : a.IsDirect)
    (hvain : ctx.policy.isProtected field = true ∨ e.criteria.on? field = none) :
    (e.perform ctx a).result = .ok false ∧ (e.perform ctx a).state = e := by
  obtain ⟨hstate, hresult⟩ := @perform_eq_remove ctx e a field h ha
  obtain ⟨hkept, hfalse⟩ := remove_of_vain hvain
  exact ⟨hresult.trans (congrArg Except.ok hfalse), hstate.trans hkept⟩

/-- A removal leaves the filters as they are when the field is protected or has none. -/
theorem filters_eq_iff_of_asksToRemove (h : e.AsksToRemove a field) (ha : a.IsDirect) :
    (e.perform ctx a).state.criteria.filters = e.criteria.filters ↔
      ctx.policy.isProtected field = true ∨ e.criteria.on? field = none := by
  constructor
  · intro hfilters
    cases hp : ctx.policy.isProtected field with
    | true => exact Or.inl rfl
    | false =>
        have hnone := Selection.on?_without_self e.criteria.filters field
        rw [← filters_of_asksToRemove h hp, hfilters] at hnone
        exact Or.inr hnone
  · intro hvain
    rw [(perform_of_vain h ha hvain).2]

/-! ## the whole -/

/-- **Exact answers and frames**: an operation on the criteria that does not fail is answered
with a change exactly when the filters or the pagination are other than before.  Other filters
are shown from the first page; paging leaves the filters and the draft alone, and the page size
is changed on its own account only; putting and removing filters leaves the draft alone; and a
removal that leaves the filters as they are, because the field is protected or has none, leaves
everything as it is. -/
theorem direct_answer_exact (ctx : Context) (e : Editor) {a : Action} (ha : a.IsDirect) :
    let step := e.perform ctx a
    let e' := step.state
    (∀ answer, step.result = .ok answer →
      (answer = true ↔
        (e'.criteria.filters, e'.criteria.pagination) ≠
          (e.criteria.filters, e.criteria.pagination))) ∧
    (e'.criteria.filters ≠ e.criteria.filters → e'.criteria.page = 1) ∧
    (∀ n, a = .setPage n ∨ a = .setPageSize n →
      e'.criteria.filters = e.criteria.filters ∧ e'.draft = e.draft) ∧
    (e'.criteria.pageSize ≠ e.criteria.pageSize → ∃ n, a = .setPageSize n) ∧
    (∀ field, a.field? = some field → e'.draft = e.draft) ∧
    ∀ field, e.AsksToRemove a field →
      (e'.criteria.filters = e.criteria.filters ↔
        ctx.policy.isProtected field = true ∨ e.criteria.on? field = none) ∧
      (e'.criteria.filters = e.criteria.filters → step.result = .ok false ∧ e' = e) := by
  intro step e'
  refine ⟨?_, page_of_filters_ne, ?_, exists_setPageSize_of_ne, ?_, ?_⟩
  · intro answer hanswer
    have hexact : step.result = .ok true ↔ e'.criteria ≠ e.criteria :=
      perform_exact ctx e (by rintro rfl; exact ha)
    rw [hanswer, Except.ok.injEq] at hexact
    rw [hexact, ne_eq, ne_eq, Criteria.mk.injEq, Prod.mk.injEq]
  · intro n hpaging
    refine ⟨filters_perform_of_paging hpaging, draft_perform ha ?_⟩
    rintro rfl
    obtain h | h := hpaging <;> contradiction
  · intro field hfield
    refine draft_perform ha ?_
    rintro rfl
    contradiction
  · intro field hasks
    have hiff := @filters_eq_iff_of_asksToRemove ctx e a field hasks ha
    exact ⟨hiff, fun hsame => perform_of_vain hasks ha (hiff.1 hsame)⟩

/-- On the third page, an empty list for a field that is not removed leaves everything as it
is; clearing everything goes to the first page. -/
theorem direct_answer_exact_of_blocked :
    let ctx := Config.standard.context.withBlockRemove ["result"]
    let e := (mount ctx (History.start "?project_id=p&result=q&page=3")).1
    let emptied : Action := .update "result" .isIn (some (.list ["", ""]))
    emptied.IsDirect ∧ e.AsksToRemove emptied "result" ∧ e.criteria.page = 3 ∧
      (e.perform ctx emptied).result = .ok false ∧ (e.perform ctx emptied).state = e ∧
      Action.clearAll.IsDirect ∧
      (e.perform ctx .clearAll).state.criteria.filters ≠ e.criteria.filters ∧
      (e.perform ctx .clearAll).state.criteria.page = 1 := by
  intro ctx e emptied
  have hprotected : ctx.policy.isProtected "result" = true := by decide
  have hasks : e.AsksToRemove emptied "result" :=
    Or.inr ⟨.isIn, some (.list ["", ""]), rfl, by simp [Value.isEmpty]⟩
  have hpage : e.criteria.page = 3 := by decide +kernel
  have hne : (e.perform ctx .clearAll).state.criteria.filters ≠ e.criteria.filters := by
    decide +kernel
  -- from here on the editor counts as any other, so that nothing is evaluated
  clear_value e
  obtain ⟨-, -, -, -, -, hremoval⟩ := direct_answer_exact ctx e (a := emptied) trivial
  obtain ⟨hiff, hkept⟩ := hremoval "result" hasks
  obtain ⟨hresult, hstate⟩ := hkept (hiff.2 (Or.inl hprotected))
  obtain ⟨-, hfirst, -⟩ := direct_answer_exact ctx e (a := .clearAll) trivial
  exact ⟨trivial, hasks, hpage, hresult, hstate, trivial, hne, hfirst hne⟩

end Editor

end ViewFilters
