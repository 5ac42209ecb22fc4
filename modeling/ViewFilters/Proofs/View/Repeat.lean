import ViewFilters.Config
import ViewFilters.Proofs.Editor.Answer
import ViewFilters.Proofs.Editor.Commits
import ViewFilters.Proofs.Editor.Frame
import ViewFilters.Proofs.View.Session

/-!
# ViewFilters.Proofs.View.Repeat

An operation carried out twice in a row.  After the first time nothing is left for it to do:

```
operation      what the first time leaves
update         the filter in force; or none on the field, for an empty value
remove         no filter on the field, unless it is protected
clearAll       pinned filters only, and an empty draft
setPage        that page
setPageSize    that size, and the first page
```

A first time that changes nothing is its own second time.  One that settles on new criteria
shows their link too, and so there is nothing to push the second time.

The statement on editors and views is `second_time_in_vain`.
-/

namespace ViewFilters

namespace Editor

variable {ctx : Context} {e : Editor} {a : Action} {c : Criteria} {field : String}
  {op : Operator} {v : Value} {f : Filter}

/-! ## settling on what is shown -/

theorem isShown_settle (ctx : Context) (e : Editor) (c : Criteria) (changed : Bool) :
    (e.settle ctx c changed).state.IsShown ctx := by
  have hcriteria := criteria_settle ctx e c changed
  rw [IsShown, query, hcriteria]
  exact current_commit ctx _

/-- Settling on the criteria in force does nothing when their link is shown. -/
theorem settle_of_isShown (hc : e.criteria = c) (h : e.IsShown ctx) (changed : Bool) :
    e.settle ctx c changed = ⟨e, [], changed⟩ := by
  subst hc
  have hcommit : commit ctx e = (e, []) := if_pos h.symm
  simp only [settle, hcommit]

/-! ## nothing left to do -/

/-- An operation has nothing left to do: it says so, and leaves the editor as it is. -/
structure IsSpent (ctx : Context) (e : Editor) (a : Action) : Prop where
  result : (e.perform ctx a).result = .ok false
  state : (e.perform ctx a).state = e

/-- There is nothing to do about a field that is protected or has no filter. -/
theorem isSpent_of_asksToRemove (ha : a.IsDirect) (hasks : e.AsksToRemove a field)
    (hvain : ctx.policy.isProtected field = true ∨ e.criteria.on? field = none) :
    e.IsSpent ctx a := by
  obtain ⟨hresult, hstate⟩ := perform_of_vain hasks ha hvain
  exact ⟨hresult, hstate⟩

/-- There is nothing to do about a filter that is in force, on the first page. -/
theorem isSpent_of_on? (ha : a.IsDirect) (hask : e.asUpdate? a = some (field, op, some v))
    (hv : v.isEmpty = false) (hb : Filter.build ctx.catalog field op v = .ok f)
    (hon : e.criteria.on? f.field = some f) (hpage : e.criteria.page = 1)
    (hshown : e.IsShown ctx) : e.IsSpent ctx a := by
  have hsame : e.criteria = (e.criteria.put f).withPage 1 := by
    rw [Criteria.put_of_on? hon, Criteria.withPage_of_page_eq hpage]
  have hupdate : e.update ctx field op (some v) = ⟨e, [], .ok false⟩ := by
    rw [Filter.field_of_build hb] at hon
    simp [update, filter_some_of_isEmpty hv, hb, hon, hpage, settle_of_isShown hsame hshown,
      Step.map]
  obtain ⟨hstate, hresult⟩ := @perform_eq_update ctx e a field op (some v) ha hask
  rw [hupdate] at hstate hresult
  exact ⟨hresult, hstate⟩

/-- There is nothing to clear when all filters are pinned, on the first page, and the draft is
empty. -/
theorem isSpent_clearAll (hpinned : e.criteria.pinnedOnly ctx.policy = e.criteria)
    (hpage : e.criteria.page = 1) (hdraft : e.draft = Draft.blank) (hshown : e.IsShown ctx) :
    e.IsSpent ctx .clearAll := by
  have hblank : { e with draft := Draft.blank } = e := by rw [← hdraft]
  have hsame : e.criteria = (e.criteria.pinnedOnly ctx.policy).withPage 1 := by
    rw [hpinned, Criteria.withPage_of_page_eq hpage]
  have hclear : e.clearAll ctx = ⟨e, [], false⟩ := by
    simp only [clearAll, hblank, settle_of_isShown hsame hshown]
    simp [hpinned, hpage]
  exact ⟨by rw [perform, hclear]; rfl, by rw [perform, hclear]; rfl⟩

theorem isSpent_setPage {n : UInt32} (h : e.criteria.page = n) : e.IsSpent ctx (.setPage n) := by
  have hstay : e.setPage ctx n = e.stay := if_pos h
  exact ⟨by rw [perform, hstay]; rfl, by rw [perform, hstay]; rfl⟩

theorem isSpent_setPageSize {n : UInt32} (h : e.criteria.pageSize = n ∧ e.criteria.page = 1) :
    e.IsSpent ctx (.setPageSize n) := by
  have hstay : e.setPageSize ctx n = e.stay := if_pos h
  exact ⟨by rw [perform, hstay]; rfl, by rw [perform, hstay]; rfl⟩

/-! ## the second time -/

theorem AsksToRemove.of_isDirect (h : e.AsksToRemove a field) (ha : a.IsDirect) (e' : Editor) :
    e'.AsksToRemove a field := by
  rwa [AsksToRemove, asUpdate?_of_isDirect ha e' e]

/-- Where the criteria are those that an operation settles on, and shown, it is spent.  Clearing
has to do with the draft as well. -/
theorem Change.isSpent (hc : Change ctx e a c) (ha : a.IsDirect) (hclear : a ≠ .clearAll)
    {e' : Editor} (hcriteria : e'.criteria = c) (hshown : e'.IsShown ctx) : e'.IsSpent ctx a := by
  cases hc with
  | @put field op v f hask hv hb =>
      have hask : e'.asUpdate? a = some (field, op, some v) := asUpdate?_of_isDirect ha e' e ▸ hask
      have hon : e'.criteria.on? f.field = some f := by
        rw [hcriteria]
        exact Selection.on?_put_self e.criteria.filters f
      have hpage : e'.criteria.page = 1 := by rw [hcriteria]; rfl
      exact isSpent_of_on? ha hask hv hb hon hpage hshown
  | @without field hasks hp hf =>
      have hnone : e'.criteria.on? field = none := by
        rw [hcriteria]
        exact Selection.on?_without_self e.criteria.filters field
      exact isSpent_of_asksToRemove ha (hasks.of_isDirect ha e') (Or.inr hnone)
  | clear h => exact absurd h hclear
  | @page n h hn =>
      subst h
      exact isSpent_setPage (by rw [hcriteria]; rfl)
  | @pageSize n h hn =>
      subst h
      exact isSpent_setPageSize (by rw [hcriteria]; exact ⟨rfl, rfl⟩)

theorem isSpent_after_clearAll (ctx : Context) (e : Editor) :
    (e.perform ctx .clearAll).state.IsSpent ctx .clearAll := by
  have hstate : (e.perform ctx .clearAll).state = (e.clearAll ctx).state := rfl
  have hcriteria : (e.clearAll ctx).state.criteria =
      (e.criteria.pinnedOnly ctx.policy).withPage 1 := criteria_settle ctx _ _ _
  rw [hstate]
  apply isSpent_clearAll
  · rw [hcriteria]
    exact congrArg (Criteria.withPage · 1) (Criteria.pinnedOnly_pinnedOnly e.criteria ctx.policy)
  · rw [hcriteria]
    rfl
  · exact draft_settle ctx _ _ _
  · exact isShown_settle ctx _ _ _

/-- An operation on the criteria that does not fail has nothing left to do. -/
theorem isSpent_of_ok (ha : a.IsDirect) {answer : Bool}
    (hok : (e.perform ctx a).result = .ok answer) : (e.perform ctx a).state.IsSpent ctx a := by
  by_cases hclear : a = .clearAll
  · subst hclear
    exact isSpent_after_clearAll ctx e
  have hdraft := @draft_perform ctx e a ha hclear
  have ho := perform_outcome ctx e a
  generalize hstep : e.perform ctx a = step at ho hok hdraft ⊢
  cases ho with
  | failed hask hv hb => contradiction
  | @kept draft events answer h =>
      -- the draft is kept too, so the second time is the first time over again
      obtain rfl : draft = e.draft := hdraft
      cases answer with
      | true =>
          obtain rfl := h rfl
          contradiction
      | false => exact ⟨congrArg Step.result hstep, congrArg Step.state hstep⟩
  | @settled c draft events answer hc h =>
      have hcriteria : (commit ctx ⟨c, draft, e.history⟩).1.criteria = c := criteria_commit ctx _
      exact hc.isSpent ha hclear hcriteria (isShown_settle ctx ⟨c, draft, e.history⟩ c answer)

end Editor

/-! ## editors and views -/

/-- **Repetition**: an operation on the criteria that does not fail has nothing left to do the
second time in a row, in an editor and in a view, whenever that is: it answers that nothing
changed, and leaves everything as the first time left it. -/
theorem View.second_time_in_vain {β : Type} (ctx : Context) {a : Action} (ha : a.IsDirect)
    (answer : Bool) :
    (∀ e : Editor, (e.perform ctx a).result = .ok answer →
      let e' := (e.perform ctx a).state
      (e'.perform ctx a).result = .ok false ∧ (e'.perform ctx a).state = e') ∧
    ∀ (v : View β) (now later : Nat), (v.edit ctx a now).result = .ok answer →
      let v' := (v.edit ctx a now).state
      (v'.edit ctx a later).result = .ok false ∧ (v'.edit ctx a later).state = v' := by
  constructor
  · intro e hok e'
    have hspent : e'.IsSpent ctx a := Editor.isSpent_of_ok ha hok
    exact ⟨hspent.result, hspent.state⟩
  · intro v now later hok v'
    have hspent : v'.editor.IsSpent ctx a := Editor.isSpent_of_ok ha hok
    exact ⟨hspent.result, state_edit_eq_self later hspent.result hspent.state⟩

/-- Asking for the filter that a view was mounted with pushes the full link to it, and asking
again pushes nothing; a new filter starts a new generation, and asking again does not. -/
theorem View.second_time_in_vain_of_mounted :
    let ctx := Config.standard.context
    let v : View Unit := (View.mount ctx (History.start "?result=pass") 0).1
    let same : Action := .update "result" .eq (some (.text "pass"))
    let other : Action := .update "result" .isIn (some (.text "b;a"))
    let e' := (v.editor.perform ctx same).state
    let v' := (v.edit ctx other 10).state
    same.IsDirect ∧ (∃ answer, (v.editor.perform ctx same).result = .ok answer) ∧
      e'.history ≠ v.editor.history ∧ (e'.perform ctx same).state = e' ∧
      other.IsDirect ∧ (v.edit ctx other 10).result = .ok true ∧ v'.gate ≠ v.gate ∧
      (v'.edit ctx other 20).result = .ok false ∧ (v'.edit ctx other 20).state = v' := by
  -- the results stay written out, so that they are compared as they stand
  intro ctx v same other
  have hbuild : ∃ f, Filter.build ctx.catalog "result" .eq (.text "pass") = .ok f := ⟨_, rfl⟩
  obtain ⟨answer, hsame⟩ := (Editor.exists_ok_update_iff (e := v.editor)).2 (Or.inr hbuild)
  have hother : (v.edit ctx other 10).result = .ok true :=
    Editor.result_eq_ok_true_iff.2 (Or.inl (by decide +kernel))
  have heditor := (View.second_time_in_vain (β := Unit) ctx (a := same) trivial answer).1
  have hview := (View.second_time_in_vain (β := Unit) ctx (a := other) trivial true).2
  have hagain := hview v 10 20 hother
  exact ⟨trivial, ⟨answer, hsame⟩, by decide +kernel, (heditor v.editor hsame).2, trivial, hother,
    by decide +kernel, hagain.1, hagain.2⟩

end ViewFilters
