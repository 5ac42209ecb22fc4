import Mathlib.Data.List.Chain
import ViewFilters.Proofs.Editor.Outcome

/-!
# ViewFilters.Proofs.Editor.Commits

What operations do to the history of links.  A step *advances* the history in one
of two ways (`Advances`):

```
kept      the history stays            nothing is reported as committed
pushed    … current → the new link     that link is reported as committed
```

It is kept when the criteria are, or when their link is the one being shown
already.  Over a run the history is therefore the one before with the committed
queries pushed in order (`history_run`), no two of them in a row are equal
(`isChain_committed`), and once the link to the criteria is shown it always is
(`IsShown.run`).
-/

namespace ViewFilters

/-! ## what is reported -/

/-- The query that an event reports as pushed. -/
def Event.query? : Event → Option String
  | .committed query => some query
  | _ => none

/-- The queries that events report as pushed, in order. -/
def committed (events : List Event) : List String := events.filterMap Event.query?

@[simp] theorem committed_append (events more : List Event) :
    committed (events ++ more) = committed events ++ committed more :=
  List.filterMap_append

theorem Operator.committed_orFallback (name : String) : committed (orFallback name).2 = [] := by
  unfold orFallback
  split <;> rfl

namespace Editor

/-- What a run reports, in order. -/
def report (ctx : Context) : Editor → List Action → List Event
  | _, [] => []
  | e, a :: as => (e.perform ctx a).events ++ report ctx (e.perform ctx a).state as

/-- The link to the criteria is the one being shown. -/
def IsShown (ctx : Context) (e : Editor) : Prop := e.history.current = e.query ctx

/-! ## one step -/

/-- What a step does to the history. -/
inductive Advances (ctx : Context) (e : Editor) {α : Type} (s : Step Editor α) : Prop where
  | kept (hh : s.state.history = e.history)
      (hc : s.state.criteria = e.criteria ∨ s.state.query ctx = e.history.current)
      (hr : committed s.events = [])
  | pushed (hh : s.state.history = e.history.push (s.state.query ctx))
      (hne : s.state.query ctx ≠ e.history.current)
      (hr : committed s.events = [s.state.query ctx])

variable {ctx : Context} {e : Editor} {α β : Type} {s : Step Editor α} {t : Step Editor β}

/-- Neither the draft nor the answer counts, nor events that report no push. -/
theorem Advances.congr (h : Advances ctx e s) (hc : t.state.criteria = s.state.criteria)
    (hh : t.state.history = s.state.history) (hr : committed t.events = committed s.events) :
    Advances ctx e t := by
  have hq : t.state.query ctx = s.state.query ctx := by simp only [query, hc]
  cases h with
  | kept hhistory hcriteria hreport =>
      exact .kept (hh.trans hhistory) (by rwa [hc, hq]) (hr.trans hreport)
  | pushed hhistory hne hreport =>
      exact .pushed (by rw [hh, hhistory, hq]) (by rwa [hq]) (by rw [hr, hreport, hq])

theorem Advances.map (h : Advances ctx e s) (f : α → β) : Advances ctx e (s.map f) :=
  h.congr rfl rfl rfl

theorem stay_advances : Advances ctx e e.stay := .kept rfl (Or.inl rfl) rfl

theorem settle_advances (draft : Draft) (c : Criteria) (changed : Bool) :
    Advances ctx e (settle ctx { e with draft } c changed) := by
  by_cases h : query ctx ⟨c, draft, e.history⟩ = e.history.current
  · simp only [settle, commit, if_pos h]
    exact .kept rfl (Or.inr h) rfl
  · simp only [settle, commit, if_neg h]
    exact .pushed rfl h rfl

theorem remove_advances (field : String) : Advances ctx e (e.remove ctx field) := by
  unfold remove
  split
  · exact .kept rfl (Or.inl rfl) rfl
  split
  · exact stay_advances
  · exact settle_advances e.draft _ true

theorem update_advances (field : String) (op : Operator) (value : Option Value) :
    Advances ctx e (e.update ctx field op value) := by
  unfold update
  split
  · exact (remove_advances field).map Except.ok
  split
  · exact .kept rfl (Or.inl rfl) rfl
  · exact (settle_advances e.draft _ _).map Except.ok

theorem updateNamed_advances (field name : String) (raw : Option String) :
    Advances ctx e (e.updateNamed ctx field name raw) := by
  have hu : Advances ctx e (e.update ctx field (Operator.orFallback name).1
      (raw.map (Value.parse (Operator.orFallback name).1.mode))) := update_advances _ _ _
  refine hu.congr rfl rfl ?_
  simp [updateNamed, Operator.committed_orFallback]

theorem setPage_advances (n : UInt32) : Advances ctx e (e.setPage ctx n) := by
  unfold setPage
  split
  · exact stay_advances
  · exact settle_advances e.draft _ true

theorem setPageSize_advances (n : UInt32) : Advances ctx e (e.setPageSize ctx n) := by
  unfold setPageSize
  split
  · exact stay_advances
  · exact settle_advances e.draft _ true

theorem applyDraft_advances : Advances ctx e (e.applyDraft ctx) := by
  unfold applyDraft
  split
  · next field raw hfield hraw =>
    have hu : Advances ctx e (e.update ctx field (e.draft.operator.getD .fallback)
        (some (Value.parse (e.draft.operator.getD .fallback).mode raw))) := update_advances _ _ _
    dsimp only
    split
    · exact hu.congr rfl rfl rfl
    · exact hu.congr rfl rfl rfl
  · exact stay_advances.map Except.ok

/-- **Steps**: every operation leaves the history alone or pushes the link to the
criteria that it leaves, and reports it. -/
theorem perform_advances (ctx : Context) (e : Editor) (a : Action) :
    Advances ctx e (e.perform ctx a) := by
  cases a with
  | update field op value => exact update_advances field op value
  | updateNamed field name raw => exact updateNamed_advances field name raw
  | remove field => exact (remove_advances field).map Except.ok
  | clearAll => exact (settle_advances Draft.blank _ _).map Except.ok
  | setPage n => exact (setPage_advances n).map Except.ok
  | setPageSize n => exact (setPageSize_advances n).map Except.ok
  | setDraftField field => exact .kept rfl (Or.inl rfl) rfl
  | setDraftOperator op => exact .kept rfl (Or.inl rfl) rfl
  | setDraftValue value => exact .kept rfl (Or.inl rfl) rfl
  | applyDraft => exact applyDraft_advances

/-- An operation leaves the history alone or pushes the link to the new criteria. -/
theorem history_perform (ctx : Context) (e : Editor) (a : Action) :
    (e.perform ctx a).state.history = e.history ∨
      (e.perform ctx a).state.history = e.history.push ((e.perform ctx a).state.query ctx) := by
  cases perform_advances ctx e a with
  | kept hh hc hr => exact Or.inl hh
  | pushed hh hne hr => exact Or.inr hh

theorem Advances.isShown (h : Advances ctx e s) (he : e.IsShown ctx) : s.state.IsShown ctx := by
  cases h with
  | kept hh hc hr =>
      rw [IsShown, hh]
      obtain hc | hc := hc
      · rw [he, query, query, hc]
      · exact hc.symm
  | pushed hh hne hr => rw [IsShown, hh, History.current_push]

/-- After a change the link to the criteria is shown. -/
theorem Advances.isShown_of_criteria_ne (h : Advances ctx e s)
    (hne : s.state.criteria ≠ e.criteria) : s.state.IsShown ctx := by
  cases h with
  | kept hh hc hr => rw [IsShown, hh, hc.resolve_left hne]
  | pushed hh hne hr => rw [IsShown, hh, History.current_push]

/-! ## runs -/

/-- The history after a run is the one before, with the committed queries pushed in order. -/
theorem history_run (ctx : Context) (e : Editor) (as : List Action) :
    (e.run ctx as).history = (committed (e.report ctx as)).foldl History.push e.history := by
  induction as generalizing e with
  | nil => rfl
  | cons a as ih =>
      rw [run, ih, report, committed_append, List.foldl_append]
      cases perform_advances ctx e a with
      | kept hh hc hr => rw [hr, hh, List.foldl_nil]
      | pushed hh hne hr => rw [hr, hh, List.foldl_cons, List.foldl_nil]

/-- What is committed differs from what was shown just before. -/
theorem isChain_committed (ctx : Context) (e : Editor) (as : List Action) :
    (e.history.current :: committed (e.report ctx as)).IsChain (· ≠ ·) := by
  induction as generalizing e with
  | nil => exact .singleton _
  | cons a as ih =>
      have hrest := ih (e.perform ctx a).state
      rw [report, committed_append]
      cases perform_advances ctx e a with
      | kept hh hc hr =>
          rw [hh] at hrest
          rwa [hr, List.nil_append]
      | pushed hh hne hr =>
          rw [hh, History.current_push] at hrest
          rw [hr, List.singleton_append]
          exact .cons_cons (Ne.symm hne) hrest

theorem IsShown.run (h : e.IsShown ctx) (as : List Action) : (e.run ctx as).IsShown ctx := by
  induction as generalizing e with
  | nil => exact h
  | cons a as ih => exact ih ((perform_advances ctx e a).isShown h)

end Editor

end ViewFilters
