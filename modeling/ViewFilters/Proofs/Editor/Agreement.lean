import ViewFilters.Proofs.Editor.Outcome

/-!
# ViewFilters.Proofs.Editor.Agreement

The criteria that an operation leaves, and its answer, depend on the criteria
before it, and for `applyDraft` on the draft.  The history has no part in them.
-/

namespace ViewFilters.Editor

/-- Two steps with the same answer that leave the same criteria. -/
structure Agree {α : Type} (s t : Step Editor α) : Prop where
  result : s.result = t.result
  criteria : s.state.criteria = t.state.criteria

theorem Agree.map {α β : Type} {s t : Step Editor α} (h : Agree s t) (f : α → β) :
    Agree (s.map f) (t.map f) :=
  ⟨congrArg f h.result, h.criteria⟩

variable {ctx : Context} {e e' : Editor}

theorem stay_agree (h : e.criteria = e'.criteria) : Agree e.stay e'.stay := ⟨rfl, h⟩

theorem settle_agree (ctx : Context) (e e' : Editor) (c : Criteria) (changed : Bool) :
    Agree (e.settle ctx c changed) (e'.settle ctx c changed) := by
  constructor
  · rfl
  · simp only [settle, criteria_commit]

/-! ## the operations -/

theorem remove_agree (h : e.criteria = e'.criteria) (field : String) :
    Agree (e.remove ctx field) (e'.remove ctx field) := by
  unfold remove
  rw [h]
  split
  · exact ⟨rfl, h⟩
  split
  · exact stay_agree h
  · exact settle_agree ctx e e' _ true

theorem update_agree (h : e.criteria = e'.criteria) (field : String) (op : Operator)
    (value : Option Value) :
    Agree (e.update ctx field op value) (e'.update ctx field op value) := by
  unfold update
  rw [h]
  split
  · exact (remove_agree h field).map Except.ok
  split
  · exact ⟨rfl, h⟩
  · exact (settle_agree ctx e e' _ _).map Except.ok

theorem clearAll_agree (h : e.criteria = e'.criteria) :
    Agree (e.clearAll ctx) (e'.clearAll ctx) := by
  unfold clearAll
  rw [h]
  exact settle_agree ctx _ _ _ _

theorem setPage_agree (h : e.criteria = e'.criteria) (page : UInt32) :
    Agree (e.setPage ctx page) (e'.setPage ctx page) := by
  unfold setPage
  rw [h]
  split
  · exact stay_agree h
  · exact settle_agree ctx e e' _ true

theorem setPageSize_agree (h : e.criteria = e'.criteria) (size : UInt32) :
    Agree (e.setPageSize ctx size) (e'.setPageSize ctx size) := by
  unfold setPageSize
  rw [h]
  split
  · exact stay_agree h
  · exact settle_agree ctx e e' _ true

theorem applyDraft_agree (h : e.criteria = e'.criteria) (hd : e.draft = e'.draft) :
    Agree (e.applyDraft ctx) (e'.applyDraft ctx) := by
  unfold applyDraft
  rw [hd]
  split
  · next field raw hfield hraw =>
    have hu : Agree (e.update ctx field (e'.draft.operator.getD .fallback) _)
        (e'.update ctx field (e'.draft.operator.getD .fallback) _) :=
      update_agree h field _ (some (Value.parse (e'.draft.operator.getD .fallback).mode raw))
    dsimp only
    rw [hu.result]
    split
    · exact ⟨rfl, hu.criteria⟩
    · exact ⟨rfl, hu.criteria⟩
  · exact (stay_agree h).map Except.ok

/-- **Agreement**: editors with the same criteria agree on every operation, on
`applyDraft` if they also have the same draft. -/
theorem perform_agree (h : e.criteria = e'.criteria) {a : Action}
    (hd : a = .applyDraft → e.draft = e'.draft) :
    Agree (e.perform ctx a) (e'.perform ctx a) := by
  cases a with
  | update field op value => exact update_agree h field op value
  | updateNamed field name raw =>
      have hu : Agree (e.update ctx field _ _) (e'.update ctx field _ _) :=
        update_agree h field (Operator.orFallback name).1
          (raw.map (Value.parse (Operator.orFallback name).1.mode))
      exact ⟨hu.result, hu.criteria⟩
  | remove field => exact (remove_agree h field).map Except.ok
  | clearAll => exact (clearAll_agree h).map Except.ok
  | setPage n => exact (setPage_agree h n).map Except.ok
  | setPageSize n => exact (setPageSize_agree h n).map Except.ok
  | setDraftField field => exact ⟨rfl, h⟩
  | setDraftOperator op => exact ⟨rfl, h⟩
  | setDraftValue value => exact ⟨rfl, h⟩
  | applyDraft => exact applyDraft_agree h (hd rfl)

end ViewFilters.Editor
