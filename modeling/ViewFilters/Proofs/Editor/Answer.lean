import ViewFilters.Proofs.Editor.Outcome

/-!
# ViewFilters.Proofs.Editor.Answer

What the answer of an operation says.  Every operation but one answers with a change
exactly when the criteria are other than before (`perform_exact`).  The exception is
applying the draft, which is answered positively when the draft was complete and its
filter could be built, be it a new filter or the one in force (`result_eq_ok_true_iff`).
-/

namespace ViewFilters

/-! ## criteria that stay the same -/

namespace Criteria

variable {c d : Criteria}

theorem put_eq_self_iff {f : Filter} : c.put f = c ↔ c.on? f.field = some f := by
  refine ⟨fun h => ?_, put_of_on?⟩
  have hon : (c.put f).on? f.field = some f := Selection.on?_put_self c.filters f
  rwa [h] at hon

theorem without_eq_self_iff {field : String} : c.without field = c ↔ c.on? field = none := by
  constructor
  · intro h
    have hon : (c.without field).on? field = none := Selection.on?_without_self c.filters field
    rwa [h] at hon
  · intro h
    rw [without, Selection.without_of_notMem (on?_eq_none_iff.1 h)]

theorem pinnedOnly_eq_self_iff {policy : Policy} :
    c.pinnedOnly policy = c ↔ (c.pinnedOnly policy).filters.length = c.filters.length :=
  ⟨fun h => by rw [h], pinnedOnly_of_length_eq⟩

theorem withPage_eq_self_iff {n : UInt32} : c.withPage n = c ↔ c.page = n :=
  ⟨fun h => by rw [← h]; rfl, withPage_of_page_eq⟩

/-- Other filters on a page are the old criteria when the filters and the page are. -/
theorem withPage_eq_iff {n : UInt32} (h : d.pagination = c.pagination) :
    d.withPage n = c ↔ d = c ∧ c.page = n := by
  constructor
  · rintro rfl
    have hpage : d.page = n := congrArg Pagination.page h
    exact ⟨(withPage_of_page_eq hpage).symm, rfl⟩
  · rintro ⟨rfl, hpage⟩
    exact withPage_of_page_eq hpage

end Criteria

namespace Editor

variable {ctx : Context} {e e' : Editor} {a : Action} {c : Criteria} {changed : Bool}

/-! ## exact answers -/

/-- The step answers with a change exactly when the criteria are other than the editor's. -/
def Exact (e : Editor) (s : Step Editor (Except FilterError Bool)) : Prop :=
  s.result = .ok true ↔ s.state.criteria ≠ e.criteria

theorem stay_exact (h : e'.criteria = e.criteria) (events : List Event) :
    Exact e ⟨e', events, .ok false⟩ := by
  simp [Exact, h]

theorem settle_exact (h : changed = true ↔ c ≠ e.criteria) :
    Exact e ((settle ctx e' c changed).map .ok) := by
  have hcriteria : (settle ctx e' c changed).state.criteria = c := criteria_commit ctx _
  have hresult : (settle ctx e' c changed).result = changed := rfl
  rw [Exact, Step.state_map, Step.result_map, hcriteria, hresult, Except.ok.injEq, h]

theorem remove_exact (ctx : Context) (e : Editor) (field : String) :
    Exact e ((e.remove ctx field).map .ok) := by
  unfold remove
  split
  · exact stay_exact rfl _
  split
  · exact stay_exact rfl _
  · next f hf =>
    refine settle_exact ?_
    have hpage : (e.criteria.without field).pagination = e.criteria.pagination := rfl
    rw [ne_eq, Criteria.withPage_eq_iff hpage, Criteria.without_eq_self_iff, hf]
    simp

theorem update_exact (ctx : Context) (e : Editor) (field : String) (op : Operator)
    (value : Option Value) : Exact e (e.update ctx field op value) := by
  unfold update
  split
  · exact remove_exact ctx e field
  split
  · simp [Exact]
  · next f hb =>
    refine settle_exact ?_
    have hfield : f.field = field := Filter.field_of_build hb
    have hsame : (e.criteria.put f).withPage 1 = e.criteria ↔
        e.criteria.on? field = some f ∧ e.criteria.page = 1 := by
      have hpage : (e.criteria.put f).pagination = e.criteria.pagination := rfl
      rw [Criteria.withPage_eq_iff hpage, Criteria.put_eq_self_iff, hfield]
    rw [Bool.or_eq_true, decide_eq_true_eq, decide_eq_true_eq]
    exact Decidable.not_and_iff_not_or_not.symm.trans (not_congr hsame.symm)

theorem clearAll_exact (ctx : Context) (e : Editor) : Exact e ((e.clearAll ctx).map .ok) := by
  refine settle_exact ?_
  have hsame : (e.criteria.pinnedOnly ctx.policy).withPage 1 = e.criteria ↔
      (e.criteria.pinnedOnly ctx.policy).filters.length = e.criteria.filters.length ∧
        e.criteria.page = 1 := by
    have hpage : (e.criteria.pinnedOnly ctx.policy).pagination = e.criteria.pagination := rfl
    rw [Criteria.withPage_eq_iff hpage, Criteria.pinnedOnly_eq_self_iff]
  rw [Bool.or_eq_true, decide_eq_true_eq, decide_eq_true_eq]
  exact Decidable.not_and_iff_not_or_not.symm.trans (not_congr hsame.symm)

theorem setPage_exact (ctx : Context) (e : Editor) (n : UInt32) :
    Exact e ((e.setPage ctx n).map .ok) := by
  unfold setPage
  split
  · exact stay_exact rfl _
  · next hn =>
    refine settle_exact ?_
    rw [ne_eq, Criteria.withPage_eq_self_iff]
    simp [hn]

theorem setPageSize_exact (ctx : Context) (e : Editor) (n : UInt32) :
    Exact e ((e.setPageSize ctx n).map .ok) := by
  unfold setPageSize
  split
  · exact stay_exact rfl _
  · next hn =>
    refine settle_exact (iff_of_true rfl fun h => hn ?_)
    rw [← h]
    exact ⟨rfl, rfl⟩

/-- **Exact answers**: but for the draft, an operation answers with a change exactly when it
changes the criteria. -/
theorem perform_exact (ctx : Context) (e : Editor) (h : a ≠ .applyDraft) :
    Exact e (e.perform ctx a) := by
  cases a with
  | update field op value => exact update_exact ctx e field op value
  | updateNamed field name raw => exact update_exact ctx e field _ _
  | remove field => exact remove_exact ctx e field
  | clearAll => exact clearAll_exact ctx e
  | setPage n => exact setPage_exact ctx e n
  | setPageSize n => exact setPageSize_exact ctx e n
  | setDraftField field => exact stay_exact rfl _
  | setDraftOperator op => exact stay_exact rfl _
  | setDraftValue value => exact stay_exact rfl _
  | applyDraft => contradiction

/-! ## failures -/

/-- An update fails when its value is not empty and no filter can be built from it, whatever
is in force. -/
theorem result_update_eq_error_iff {field : String} {op : Operator} {value : Option Value}
    {err : FilterError} :
    (e.update ctx field op value).result = .error err ↔
      ∃ v, value = some v ∧ v.isEmpty = false ∧
        Filter.build ctx.catalog field op v = .error err := by
  unfold update
  split
  · next hnone =>
    refine iff_of_false (fun h => by contradiction) ?_
    rintro ⟨v, rfl, hv, -⟩
    rw [filter_some_of_isEmpty hv] at hnone
    contradiction
  · next v hsome =>
    obtain ⟨rfl, hne⟩ := Option.filter_eq_some_iff.1 hsome
    have hv : v.isEmpty = false := by simpa using hne
    have hbuild : (∃ w, some v = some w ∧ w.isEmpty = false ∧
        Filter.build ctx.catalog field op w = .error err) ↔
          Filter.build ctx.catalog field op v = .error err := by
      simp [hv]
    rw [hbuild]
    split
    · next err' hb => rw [hb, Except.error.injEq, Except.error.injEq]
    · next f hb =>
      rw [hb]
      exact iff_of_false (fun h => by contradiction) (fun h => by contradiction)

/-! ## applying the draft -/

/-- An update succeeds when its value is empty or its filter can be built. -/
theorem exists_ok_update_iff {field : String} {op : Operator} {v : Value} :
    (∃ b, (e.update ctx field op (some v)).result = .ok b) ↔
      v.isEmpty = true ∨ ∃ f, Filter.build ctx.catalog field op v = .ok f := by
  cases hv : v.isEmpty with
  | true =>
      refine iff_of_true ⟨(e.remove ctx field).result, ?_⟩ (Or.inl rfl)
      rw [update_of_isEmpty hv]
      rfl
  | false =>
      constructor
      · rintro ⟨b, hb⟩
        exact Or.inr (build_of_update hv hb)
      · rintro (hempty | ⟨f, hf⟩)
        · contradiction
        · obtain ⟨b, hb⟩ : ∃ b, e.update ctx field op (some v) = _ := update_of_build hv hf
          exact ⟨b, by rw [hb]; rfl⟩

/-- The draft is complete, and unless its value is empty its filter can be built. -/
def DraftApplies (ctx : Context) (e : Editor) : Prop :=
  ∃ field op v, e.asUpdate? .applyDraft = some (field, op, some v) ∧
    (v.isEmpty = true ∨ ∃ f, Filter.build ctx.catalog field op v = .ok f)

theorem draftApplies_iff {field : String} {op : Operator} {v : Value}
    (hask : e.asUpdate? .applyDraft = some (field, op, some v)) :
    e.DraftApplies ctx ↔ ∃ b, (e.update ctx field op (some v)).result = .ok b := by
  rw [exists_ok_update_iff]
  constructor
  · rintro ⟨field', op', v', hask', happlies⟩
    rw [hask] at hask'
    cases hask'
    exact happlies
  · exact fun happlies => ⟨field, op, v, hask, happlies⟩

theorem result_applyDraft_iff : (e.applyDraft ctx).result = .ok true ↔ e.DraftApplies ctx := by
  unfold applyDraft
  split
  · next field raw hfield hraw =>
    rw [draftApplies_iff (asUpdate?_of_draft hfield hraw)]
    dsimp only
    split
    · next err herr => simp [herr]
    · next b hb => exact iff_of_true rfl ⟨b, hb⟩
  · next hmissing =>
    refine iff_of_false (fun hresult => Bool.false_ne_true (Except.ok.inj hresult)) ?_
    rintro ⟨field, op, v, hask, -⟩
    simp only [asUpdate?] at hask
    contradiction

/-! ## moving on -/

/-- The operation changes the criteria, or it applies the draft. -/
def MovesOn (ctx : Context) (e : Editor) (a : Action) : Prop :=
  (e.perform ctx a).state.criteria ≠ e.criteria ∨ (a = .applyDraft ∧ e.DraftApplies ctx)

/-- **Positive answers**: an operation answers with a change when it changes the criteria,
and also when it applies a draft that leaves them as they are. -/
theorem result_eq_ok_true_iff : (e.perform ctx a).result = .ok true ↔ e.MovesOn ctx a := by
  constructor
  · intro hresult
    by_cases ha : a = .applyDraft
    · subst ha
      exact Or.inr ⟨rfl, result_applyDraft_iff.1 hresult⟩
    · exact Or.inl ((perform_exact ctx e ha).1 hresult)
  · rintro (hchanged | ⟨rfl, hdraft⟩)
    · exact Classical.byContradiction fun hresult => hchanged (criteria_of_result_ne hresult)
    · exact result_applyDraft_iff.2 hdraft

end Editor

end ViewFilters
