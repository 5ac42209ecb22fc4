import ViewFilters.Config
import ViewFilters.Proofs.Editor.Answer
import ViewFilters.Proofs.View.Run

/-!
# ViewFilters.Proofs.View.Failure

Operations that fail.  Of all operations only those that ask for a filter can fail, and they
do when there is none to build:

```
operation      value               outcome
update         none, or empty      as a removal, which does not fail
update         other               fails as the building of the filter does
updateNamed    read from the text  as an update
applyDraft     read from the text  as an update, if the draft is complete
other                              does not fail
```

What is in force has no part in it.  An operation that fails leaves the view as it was, so a
run comes to the same when the operations that fail are left out of it (`run_succeeding`).
The statement on views is `failures_leave_no_trace`.
-/

namespace ViewFilters

namespace Editor

variable {ctx : Context} {e : Editor} {a : Action} {err : FilterError}

/-! ## why an operation fails -/

/-- The operation asks for a filter that cannot be built. -/
def IsRefused (ctx : Context) (e : Editor) (a : Action) (err : FilterError) : Prop :=
  ∃ field op v, e.asUpdate? a = some (field, op, some v) ∧ v.isEmpty = false ∧
    Filter.build ctx.catalog field op v = .error err

/-- An operation fails with the update that it comes down to. -/
theorem error_iff_of_asUpdate? {field : String} {op : Operator} {value : Option Value}
    (h : e.asUpdate? a = some (field, op, value)) :
    (e.perform ctx a).result = .error err ↔ (e.update ctx field op value).result = .error err := by
  cases a with
  | update | updateNamed =>
      simp only [asUpdate?, Option.some.injEq, Prod.mk.injEq] at h
      obtain ⟨rfl, rfl, rfl⟩ := h
      rfl
  | applyDraft =>
      simp only [asUpdate?] at h
      split at h
      · next field' raw hfield hraw =>
        simp only [Option.some.injEq, Prod.mk.injEq] at h
        obtain ⟨rfl, rfl, rfl⟩ := h
        simp only [perform, applyDraft, hfield, hraw]
        split
        · next err' herr => rw [herr]
        · next b hb => simp [hb]
      · contradiction
  | remove | clearAll | setPage | setPageSize => contradiction
  | setDraftField | setDraftOperator | setDraftValue => contradiction

/-- **Failures**: an operation fails exactly when it asks for a filter that cannot be built,
and with the error of that. -/
theorem result_eq_error_iff : (e.perform ctx a).result = .error err ↔ e.IsRefused ctx a err := by
  constructor
  · intro h
    have ho := perform_outcome ctx e a
    generalize e.perform ctx a = step at ho h
    cases ho with
    | @failed events field op v err' ha hv hb =>
        obtain rfl := Except.error.inj h
        exact ⟨field, op, v, ha, hv, hb⟩
    | kept hd => contradiction
    | settled hc hs => contradiction
  · rintro ⟨field, op, v, ha, hv, hb⟩
    rw [error_iff_of_asUpdate? ha, result_update_eq_error_iff]
    exact ⟨v, rfl, hv, hb⟩

/-- Without a value, or with an empty one, an update does not fail. -/
theorem exists_ok_update_of_empty (field : String) (op : Operator) {value : Option Value}
    (h : ∀ v ∈ value, v.isEmpty = true) :
    ∃ answer, (e.update ctx field op value).result = .ok answer := by
  rw [update_of_empty h]
  exact ⟨(e.remove ctx field).result, rfl⟩

end Editor

/-! ## runs without the failures -/

namespace View

variable {β : Type} {ctx : Context} {v : View β}

/-- Whether an operation fails. -/
def Operation.fails (ctx : Context) (v : View β) : Operation β → Bool
  | .edit action now => !(v.edit ctx action now).result.isOk
  | .poll _ | .fetchNow _ | .complete _ _ => false

/-- The operations of a run that do not fail when their turn comes. -/
def succeeding (ctx : Context) : View β → List (Operation β) → List (Operation β)
  | _, [] => []
  | v, op :: ops =>
    let rest := succeeding ctx (v.operate ctx op) ops
    if op.fails ctx v then rest else op :: rest

/-- An operation that fails is as if it had not been carried out. -/
theorem operate_of_fails {op : Operation β} (h : op.fails ctx v = true) : v.operate ctx op = v := by
  cases op with
  | edit action now =>
      cases hresult : (v.edit ctx action now).result with
      | ok answer => simp [Operation.fails, hresult, Except.isOk, Except.toBool] at h
      | error err => exact state_edit_of_error now hresult
  | poll | fetchNow | complete => contradiction

/-- The operations that fail can be left out of a run. -/
theorem run_succeeding (ctx : Context) (v : View β) (ops : List (Operation β)) :
    v.run ctx (v.succeeding ctx ops) = v.run ctx ops := by
  induction ops generalizing v with
  | nil => rfl
  | cons op ops ih =>
      rw [succeeding, run_cons, ← ih]
      split
      · next hfails => rw [operate_of_fails hfails]
      · rw [run_cons]

/-! ## the whole -/

/-- **No trace**: an operation that fails leaves the whole view as it was, and can be left out of
any run.  It fails exactly when it asks for a filter that cannot be built.  For an update this
means that there is a value, that it is not empty, and that no filter is built from it; the
error is the one of that, whatever the view is.  Without a value, or with an empty one, an
update succeeds, be the field and the operator as they may. -/
theorem failures_leave_no_trace (ctx : Context) (v : View β) :
    (∀ a now err, (v.edit ctx a now).result = .error err →
      (v.edit ctx a now).state = v ∧ v.editor.IsRefused ctx a err) ∧
    (∀ field op value now err, (v.edit ctx (.update field op value) now).result = .error err ↔
      ∃ w, value = some w ∧ w.isEmpty = false ∧
        Filter.build ctx.catalog field op w = .error err) ∧
    (∀ field op value now, (∀ w ∈ value, w.isEmpty = true) →
      ∃ answer, (v.edit ctx (.update field op value) now).result = .ok answer) ∧
    ∀ ops, v.run ctx (v.succeeding ctx ops) = v.run ctx ops := by
  refine ⟨fun a now err h => ?_, fun field op value now err => ?_,
    fun field op value now h => ?_, run_succeeding ctx v⟩
  · exact ⟨state_edit_of_error now h, Editor.result_eq_error_iff.1 h⟩
  · exact Editor.result_update_eq_error_iff
  · exact Editor.exists_ok_update_of_empty field op h

/-- A draft that its field does not take is kept, with all the rest; a list of empty texts for
the key of the page is taken for nothing to filter on. -/
theorem failures_leave_no_trace_of_draft :
    let ctx := Config.standard.context
    let mounted : View Unit := (mount ctx (History.start "?result=a&page=3") 0).1
    let e := mounted.editor.run ctx
      [.setDraftField "duration", .setDraftOperator .contains, .setDraftValue "5"]
    let v := { mounted with editor := e }
    let err : FilterError := .illegalOperator "duration" .contains .numeric
    (v.edit ctx .applyDraft 10).result = .error err ∧ (v.edit ctx .applyDraft 10).state = v ∧
      ∃ answer, (v.edit ctx (.update "page" .contains (some (.list ["", ""]))) 10).result =
        .ok answer := by
  intro ctx mounted e v err
  have hfailed : (v.edit ctx .applyDraft 10).result = .error err := rfl
  obtain ⟨hkept, -, hempty, -⟩ := failures_leave_no_trace ctx v
  exact ⟨hfailed, (hkept _ _ _ hfailed).1, hempty _ _ _ _ (by simp [Value.isEmpty])⟩

end View

end ViewFilters
