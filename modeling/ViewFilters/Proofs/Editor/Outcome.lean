import ViewFilters.Editor.Action
import ViewFilters.Proofs.Criteria.Selection

/-!
# ViewFilters.Proofs.Editor.Outcome

All that one operation of an editor can come to (`perform_outcome`):

1. it *fails*, because the filter that it asks for cannot be built, and leaves
   the editor as it was;
2. it *keeps* the criteria and the history, and at most touches the draft;
3. it *settles* on new criteria, one of the five kinds of `Change`, and commits
   their link.

Whoever shows that an operation preserves something goes through these cases,
and not through the operations.
-/

namespace ViewFilters.Editor

/-! ## committing -/

@[simp] theorem criteria_commit (ctx : Context) (e : Editor) :
    (commit ctx e).1.criteria = e.criteria := by
  unfold commit
  split <;> rfl

@[simp] theorem draft_commit (ctx : Context) (e : Editor) :
    (commit ctx e).1.draft = e.draft := by
  unfold commit
  split <;> rfl

/-- The link is pushed unless it is already the one being shown. -/
theorem history_commit (ctx : Context) (e : Editor) :
    (e.query ctx = e.history.current ∧ (commit ctx e).1.history = e.history) ∨
      (commit ctx e).1.history = e.history.push (e.query ctx) := by
  unfold commit
  split
  · next h => exact Or.inl ⟨h, rfl⟩
  · exact Or.inr rfl

/-- After a commit the link to the criteria is the one being shown. -/
@[simp] theorem current_commit (ctx : Context) (e : Editor) :
    (commit ctx e).1.history.current = e.query ctx := by
  obtain ⟨hq, hkept⟩ | hpushed := history_commit ctx e
  · rw [hkept, hq]
  · rw [hpushed, History.current_push]

/-- The draft is no part of a link. -/
theorem commit_withDraft (ctx : Context) (c : Criteria) (d d' : Draft) (h : History) :
    { (commit ctx ⟨c, d, h⟩).1 with draft := d' } = (commit ctx ⟨c, d', h⟩).1 := by
  have hq : query ctx ⟨c, d, h⟩ = query ctx ⟨c, d', h⟩ := rfl
  unfold commit
  rw [hq]
  split <;> rfl

/-! ## what is asked for -/

/-- The update that an operation comes down to, with its field, operator and value. -/
def asUpdate? (e : Editor) : Action → Option (String × Operator × Option Value)
  | .update field op value => some (field, op, value)
  | .updateNamed field name raw =>
    let op := (Operator.orFallback name).1
    some (field, op, raw.map (Value.parse op.mode))
  | .applyDraft =>
    match e.draft.field, e.draft.value with
    | some field, some raw =>
      let op := e.draft.operator.getD .fallback
      some (field, op, some (Value.parse op.mode raw))
    | _, _ => none
  | _ => none

/-- A complete draft comes down to an update, with equality for a missing operator. -/
theorem asUpdate?_of_draft {e : Editor} {field raw : String} (hfield : e.draft.field = some field)
    (hraw : e.draft.value = some raw) :
    e.asUpdate? .applyDraft = some (field, e.draft.operator.getD .fallback,
      some (Value.parse (e.draft.operator.getD .fallback).mode raw)) := by
  simp only [asUpdate?, hfield, hraw]

/-- The operation asks for the filter on a field to be gone. -/
def AsksToRemove (e : Editor) (a : Action) (field : String) : Prop :=
  a = .remove field ∨
    ∃ op value, e.asUpdate? a = some (field, op, value) ∧ ∀ v ∈ value, v.isEmpty = true

/-- The criteria that an operation can settle on. -/
inductive Change (ctx : Context) (e : Editor) (a : Action) : Criteria → Prop where
  | put {field : String} {op : Operator} {v : Value} {f : Filter}
      (ha : e.asUpdate? a = some (field, op, some v)) (hv : v.isEmpty = false)
      (hb : Filter.build ctx.catalog field op v = .ok f) :
      Change ctx e a ((e.criteria.put f).withPage 1)
  | without {field : String} (ha : e.AsksToRemove a field)
      (hp : ctx.policy.isProtected field = false) (hf : e.criteria.on? field ≠ none) :
      Change ctx e a ((e.criteria.without field).withPage 1)
  | clear (ha : a = .clearAll) :
      Change ctx e a ((e.criteria.pinnedOnly ctx.policy).withPage 1)
  | page {n : UInt32} (ha : a = .setPage n) (hn : e.criteria.page ≠ n) :
      Change ctx e a (e.criteria.withPage n)
  | pageSize {n : UInt32} (ha : a = .setPageSize n)
      (hn : ¬(e.criteria.pageSize = n ∧ e.criteria.page = 1)) :
      Change ctx e a ((e.criteria.withPageSize n).withPage 1)

/-- What an operation of an editor comes to. -/
inductive Outcome (ctx : Context) (e : Editor) (a : Action) :
    Step Editor (Except FilterError Bool) → Prop where
  | failed {events : List Event} {field : String} {op : Operator} {v : Value} {err : FilterError}
      (ha : e.asUpdate? a = some (field, op, some v)) (hv : v.isEmpty = false)
      (hb : Filter.build ctx.catalog field op v = .error err) :
      Outcome ctx e a ⟨e, events, .error err⟩
  | kept {draft : Draft} {events : List Event} {answer : Bool}
      (h : answer = true → a = .applyDraft) :
      Outcome ctx e a ⟨{ e with draft }, events, .ok answer⟩
  | settled {c : Criteria} {draft : Draft} {events : List Event} {answer : Bool}
      (hc : Change ctx e a c) (h : answer = false → c = e.criteria) :
      Outcome ctx e a ⟨(commit ctx ⟨c, draft, e.history⟩).1, events, .ok answer⟩

/-! ## the operations -/

variable {ctx : Context} {e : Editor} {a : Action}

/-- Doing nothing is an outcome of every operation. -/
theorem Outcome.stay (events : List Event) : Outcome ctx e a ⟨e, events, .ok false⟩ :=
  @Outcome.kept ctx e a e.draft events false (fun h => by contradiction)

theorem Outcome.prependEvents {s : Step Editor (Except FilterError Bool)} (h : Outcome ctx e a s)
    (events : List Event) : Outcome ctx e a { s with events := events ++ s.events } := by
  cases h with
  | failed ha hv hb => exact .failed ha hv hb
  | kept h => exact .kept h
  | settled hc h => exact .settled hc h

theorem settle_outcome {c : Criteria} {draft : Draft} {answer : Bool} (hc : Change ctx e a c)
    (h : answer = false → c = e.criteria) :
    Outcome ctx e a ((settle ctx { e with draft } c answer).map .ok) :=
  .settled hc h

theorem remove_outcome {field : String} (ha : e.AsksToRemove a field) :
    Outcome ctx e a ((e.remove ctx field).map .ok) := by
  unfold remove
  split
  · exact .stay _
  · next hp =>
    split
    · exact .stay _
    · next f hf =>
      have hc : Change ctx e a ((e.criteria.without field).withPage 1) :=
        .without ha (by simpa using hp) (by simp [hf])
      exact settle_outcome hc (fun h => by contradiction)

theorem update_outcome {field : String} {op : Operator} {value : Option Value}
    (ha : e.asUpdate? a = some (field, op, value)) :
    Outcome ctx e a (e.update ctx field op value) := by
  unfold update
  split
  · next hnone =>
    refine remove_outcome (Or.inr ⟨op, value, ha, ?_⟩)
    simpa [Option.filter_eq_none_iff] using hnone
  · next v hsome =>
    obtain ⟨hv, hne⟩ := Option.filter_eq_some_iff.1 hsome
    have hne : v.isEmpty = false := by simpa using hne
    rw [hv] at ha
    split
    · next err hb => exact .failed ha hne hb
    · next f hb =>
      refine settle_outcome (.put ha hne hb) (fun hsame => ?_)
      rw [Bool.or_eq_false_iff, decide_eq_false_iff_not, decide_eq_false_iff_not,
        Classical.not_not, Classical.not_not] at hsame
      obtain ⟨hon, hpage⟩ := hsame
      rw [← Filter.field_of_build hb] at hon
      rw [Criteria.put_of_on? hon, Criteria.withPage_of_page_eq hpage]

/-! ### updates with a value -/

/-- An update without a value, or with an empty one, removes the filter. -/
theorem update_of_empty {field : String} {op : Operator} {value : Option Value}
    (h : ∀ v ∈ value, v.isEmpty = true) :
    e.update ctx field op value = (e.remove ctx field).map .ok := by
  have hnone : value.filter (!·.isEmpty) = none := by simpa [Option.filter_eq_none_iff] using h
  simp only [update, hnone]

theorem update_of_isEmpty {field : String} {op : Operator} {v : Value} (hv : v.isEmpty = true) :
    e.update ctx field op (some v) = (e.remove ctx field).map .ok :=
  update_of_empty (by simpa using hv)

theorem filter_some_of_isEmpty {v : Value} (hv : v.isEmpty = false) :
    (some v).filter (!·.isEmpty) = some v := by
  simp [hv]

theorem build_of_update {field : String} {op : Operator} {v : Value} {b : Bool}
    (hv : v.isEmpty = false) (hs : (e.update ctx field op (some v)).result = .ok b) :
    ∃ f, Filter.build ctx.catalog field op v = .ok f := by
  unfold update at hs
  simp only [filter_some_of_isEmpty hv] at hs
  cases hb : Filter.build ctx.catalog field op v with
  | ok f => exact ⟨f, rfl⟩
  | error err =>
      simp only [hb] at hs
      contradiction

theorem update_of_build {field : String} {op : Operator} {v : Value} {f : Filter}
    (hv : v.isEmpty = false) (hb : Filter.build ctx.catalog field op v = .ok f) :
    ∃ b, e.update ctx field op (some v) =
      (e.settle ctx ((e.criteria.put f).withPage 1) b).map .ok := by
  exact ⟨_, by simp only [update, filter_some_of_isEmpty hv, hb]; rfl⟩

/-! ### the other operations -/

theorem clearAll_outcome : Outcome ctx e .clearAll ((e.clearAll ctx).map .ok) := by
  refine settle_outcome (.clear rfl) (fun hsame => ?_)
  rw [Bool.or_eq_false_iff, decide_eq_false_iff_not, decide_eq_false_iff_not,
    Classical.not_not, Classical.not_not] at hsame
  obtain ⟨hlength, hpage⟩ := hsame
  rw [Criteria.pinnedOnly_of_length_eq hlength, Criteria.withPage_of_page_eq hpage]

theorem setPage_outcome (n : UInt32) : Outcome ctx e (.setPage n) ((e.setPage ctx n).map .ok) := by
  unfold setPage
  split
  · exact .stay _
  · next hn => exact settle_outcome (.page rfl hn) (fun h => by contradiction)

theorem setPageSize_outcome (n : UInt32) :
    Outcome ctx e (.setPageSize n) ((e.setPageSize ctx n).map .ok) := by
  unfold setPageSize
  split
  · exact .stay _
  · next hn => exact settle_outcome (.pageSize rfl hn) (fun h => by contradiction)

/-- An update that succeeds is still one of the outcomes when the draft is
emptied after it. -/
theorem Outcome.emptyDraft {s : Step Editor (Except FilterError Bool)}
    (h : Outcome ctx e .applyDraft s) {answer : Bool} (hs : s.result = .ok answer) :
    Outcome ctx e .applyDraft ⟨{ s.state with draft := Draft.blank }, s.events, .ok true⟩ := by
  cases h with
  | failed ha hv hb => contradiction
  | kept h => exact .kept (fun _ => rfl)
  | settled hc h =>
      rw [commit_withDraft]
      exact .settled hc (fun h => by contradiction)

theorem applyDraft_outcome : Outcome ctx e .applyDraft (e.applyDraft ctx) := by
  unfold applyDraft
  split
  · next field raw hfield hraw =>
    have hu : Outcome ctx e .applyDraft _ := update_outcome (asUpdate?_of_draft hfield hraw)
    dsimp only
    split
    · next err herr =>
      rw [← herr]
      exact hu
    · next answer hok => exact hu.emptyDraft hok
  · exact .stay _

/-- **Outcomes**: every operation fails, keeps the criteria or settles on new ones. -/
theorem perform_outcome (ctx : Context) (e : Editor) (a : Action) :
    Outcome ctx e a (e.perform ctx a) := by
  cases a with
  | update field op value => exact update_outcome rfl
  | updateNamed field name raw => exact (update_outcome rfl).prependEvents _
  | remove field => exact remove_outcome (Or.inl rfl)
  | clearAll => exact clearAll_outcome
  | setPage n => exact setPage_outcome n
  | setPageSize n => exact setPageSize_outcome n
  | setDraftField field => exact .kept (fun h => by contradiction)
  | setDraftOperator op => exact .kept (fun h => by contradiction)
  | setDraftValue value => exact .kept (fun h => by contradiction)
  | applyDraft => exact applyDraft_outcome

/-- What holds of the criteria and of all that they can change to holds after an operation. -/
theorem criteria_perform_of_change {P : Criteria → Prop} (h : P e.criteria)
    (hc : ∀ c, Change ctx e a c → P c) : P (e.perform ctx a).state.criteria := by
  have ho := perform_outcome ctx e a
  generalize e.perform ctx a = step at ho ⊢
  cases ho with
  | failed ha hv hb => exact h
  | kept hd => exact h
  | settled hchange hs =>
      rw [criteria_commit]
      exact hc _ hchange

/-- What holds of the criteria and is kept by every change holds after any run. -/
theorem criteria_run_of_change {P : Criteria → Prop} (h : P e.criteria)
    (hc : ∀ e a c, Change ctx e a c → P e.criteria → P c) (as : List Action) :
    P (e.run ctx as).criteria := by
  induction as generalizing e with
  | nil => exact h
  | cons a as ih => exact ih (criteria_perform_of_change h (fun c hchange => hc e a c hchange h))

/-- An operation that fails leaves the editor as it was. -/
theorem state_of_error {err : FilterError} (h : (e.perform ctx a).result = .error err) :
    (e.perform ctx a).state = e := by
  have ho := perform_outcome ctx e a
  generalize e.perform ctx a = step at ho h ⊢
  cases ho with
  | failed ha hv hb => rfl
  | kept hd => contradiction
  | settled hc hs => contradiction

/-- An operation that does not answer with a change leaves the criteria as they were. -/
theorem criteria_of_result_ne (h : (e.perform ctx a).result ≠ .ok true) :
    (e.perform ctx a).state.criteria = e.criteria := by
  have ho := perform_outcome ctx e a
  generalize e.perform ctx a = step at ho h ⊢
  cases ho with
  | failed ha hv hb => rfl
  | kept hd => rfl
  | @settled c draft events answer hc hs =>
      rw [criteria_commit]
      cases answer with
      | false => exact hs rfl
      | true => contradiction

end ViewFilters.Editor
