import ViewFilters.Proofs.Editor.Reload

/-!
# ViewFilters.Proofs.Editor.Opening

The ways to come by an editor, other than through a view: without filters, from a
query, or from the link being shown.  Each gives a valid selection
(`Opening.valid`), leaves the history as it is (`Opening.history_editor`) and reports
warnings only, so nothing is committed (`Opening.committed_report`).

What becomes of the history from an opening on is put together in
`history_committed`.
-/

namespace ViewFilters

/-- The ways to come by an editor other than through a view. -/
inductive Opening where
  | blank (history : History)
  | ofQuery (query : String) (history : History)
  | mount (history : History)

namespace Opening

/-- The editor that is opened. -/
def editor (ctx : Context) : Opening → Editor
  | blank history => Editor.blank ctx history
  | ofQuery query history => (Editor.ofQuery ctx query history).1
  | mount history => (Editor.mount ctx history).1

/-- What is reported on opening. -/
def report (ctx : Context) : Opening → List Event
  | blank _ => []
  | ofQuery query history => (Editor.ofQuery ctx query history).2
  | mount history => (Editor.mount ctx history).2

/-- The history that is opened. -/
def history : Opening → History
  | blank history | ofQuery _ history | mount history => history

/-! ## what is opened -/

theorem history_editor (ctx : Context) (o : Opening) : (o.editor ctx).history = o.history := by
  cases o with
  | blank history => rfl
  | ofQuery query history => simp only [editor, Editor.ofQuery, Opening.history]
  | mount history => rw [editor, Editor.history_mount, Opening.history]

end Opening

theorem Criteria.valid_ofQuery (ctx : Context) (query : String) :
    Selection.Valid ctx.catalog (ofQuery ctx query).1.filters :=
  (linkable_ofQuery ctx query).selection

theorem Opening.valid (ctx : Context) (o : Opening) :
    Selection.Valid ctx.catalog (o.editor ctx).criteria.filters := by
  cases o with
  | blank history => exact Selection.valid_nil
  | ofQuery query history =>
      rw [editor, Editor.criteria_ofQuery]
      exact Criteria.valid_ofQuery ctx query
  | mount history =>
      rw [editor, Editor.criteria_mount]
      exact Criteria.valid_ofQuery ctx history.current

/-! ## what is reported on opening -/

theorem level_of_mem_countOr {standard : UInt32} {key raw : String} {event : Event}
    (h : event ∈ (countOr standard key raw).2) : event.level = .warn := by
  unfold countOr at h
  split at h
  · contradiction
  · rw [List.mem_singleton.1 h, Event.level]

theorem Criteria.level_of_mem_readPair {ctx : Context} {c : Criteria} {key raw : String}
    {event : Event} (h : event ∈ (c.readPair ctx key raw).2) : event.level = .warn := by
  unfold readPair at h
  split at h
  · exact level_of_mem_countOr h
  split at h
  · exact level_of_mem_countOr h
  refine @Filter.level_of_mem_recover ctx.catalog key raw event ?_
  split at h
  · next f events hr => rwa [hr]
  · next events hr => rwa [hr]

theorem Criteria.level_of_mem_readPairs {ctx : Context} {c : Criteria}
    {pairs : List (String × String)} {event : Event} (h : event ∈ (readPairs ctx c pairs).2) :
    event.level = .warn := by
  induction pairs generalizing c with
  | nil => contradiction
  | cons pair pairs ih =>
      obtain h | h := List.mem_append.1 h
      · exact level_of_mem_readPair h
      · exact ih h

/-- Reading a query reports warnings only. -/
theorem Criteria.level_of_mem_ofQuery {ctx : Context} {query : String} {event : Event}
    (h : event ∈ (ofQuery ctx query).2) : event.level = .warn := by
  rw [ofQuery] at h
  exact level_of_mem_readPairs h

/-- No push is among warnings. -/
theorem committed_of_warnings {events : List Event} (h : ∀ event ∈ events, event.level = .warn) :
    committed events = [] := by
  rw [committed, List.filterMap_eq_nil_iff]
  intro event hmem
  have hwarn := h event hmem
  cases event <;> first | rfl | contradiction

theorem Opening.committed_report (ctx : Context) (o : Opening) : committed (o.report ctx) = [] := by
  cases o with
  | blank history => rfl
  | ofQuery query history =>
      simp only [report, Editor.ofQuery]
      exact committed_of_warnings fun _ h => Criteria.level_of_mem_ofQuery h
  | mount history =>
      simp only [report, Editor.mount, Editor.ofQuery]
      exact committed_of_warnings fun _ h => Criteria.level_of_mem_ofQuery h

/-! ## the whole -/

namespace Editor

/-- **Commits**: opening an editor pushes nothing.  Each operation pushes nothing or one
query, the link to the criteria that it leaves, when that is not being shown already; a
push drops what was ahead of the cursor and puts the cursor on the new entry, the last.
The history is thus that of the opening with the committed queries pushed in order, no
two in a row equal.  From the first change of the criteria on, the link to them is shown. -/
theorem history_committed (ctx : Context) (o : Opening) (as : List Action) :
    let start := o.editor ctx
    let e := start.run ctx as
    let queries := committed (start.report ctx as)
    (start.history = o.history ∧ committed (o.report ctx) = []) ∧
    e.history = queries.foldl History.push o.history ∧
    (o.history.current :: queries).IsChain (· ≠ ·) ∧
    (∀ a,
      let step := e.perform ctx a
      (step.state.history = e.history ∧ committed step.events = []) ∨
      ∃ q, q = step.state.query ctx ∧ q ≠ e.history.current ∧ committed step.events = [q] ∧
        step.state.history.entries = e.history.entries.take (e.history.cursor + 1) ++ [q] ∧
        step.state.history.cursor + 1 = step.state.history.entries.length) ∧
    ∀ pre a post, as = pre ++ a :: post →
      let before := start.run ctx pre
      (before.perform ctx a).state.criteria ≠ before.criteria → e.history.current = e.query ctx := by
  intro start e queries
  have hstart : start.history = o.history := o.history_editor ctx
  have hchain := isChain_committed ctx start as
  rw [hstart] at hchain
  refine ⟨⟨hstart, o.committed_report ctx⟩, hstart ▸ history_run ctx start as, hchain, ?_, ?_⟩
  · intro a step
    cases perform_advances ctx e a with
    | kept hh hc hr => exact Or.inl ⟨hh, hr⟩
    | pushed hh hne hr =>
        refine Or.inr ⟨_, rfl, hne, hr, congrArg History.entries hh, ?_⟩
        rw [hh]
        exact History.atEnd_push _ _
  · rintro pre a post rfl before hne
    have hshown := (perform_advances ctx before a).isShown_of_criteria_ne hne
    have he : e = (before.perform ctx a).state.run ctx post := run_append ctx start pre (a :: post)
    rw [he]
    exact hshown.run post

/-- The link to a page that was gone to stays the one being shown when a removal is
refused, a filter cannot be built and the same page is asked for once more. -/
theorem history_committed_of_refusals :
    let ctx := Config.standard.context.withBlockRemove ["result"]
    let start := (Opening.ofQuery "result=a" ⟨["result=a", "component=b"], 0⟩).editor ctx
    let number : Action := .update "duration" .contains (some (.text "5"))
    let e := start.run ctx [.setPage 2, .remove "result", number, .setPage 2]
    (start.perform ctx (.setPage 2)).state.criteria ≠ start.criteria ∧
      e.history.current = e.query ctx := by
  intro ctx start number e
  have hne : (start.perform ctx (.setPage 2)).state.criteria ≠ start.criteria := by
    decide +kernel
  obtain ⟨-, -, -, -, hshown⟩ := history_committed ctx
    (.ofQuery "result=a" ⟨["result=a", "component=b"], 0⟩)
    [.setPage 2, .remove "result", number, .setPage 2]
  have hstart : (Opening.ofQuery "result=a" ⟨["result=a", "component=b"], 0⟩).editor ctx = start :=
    rfl
  rw [hstart] at hshown
  -- from here on the editor counts as any other, so that nothing is evaluated
  clear_value start
  exact ⟨hne, hshown [] (.setPage 2) _ rfl hne⟩

end Editor

end ViewFilters
