import ViewFilters.Proofs.Editor.Frame
import ViewFilters.Proofs.Editor.Opening
import ViewFilters.Proofs.View.Failure

/-!
# ViewFilters.Proofs.Editor.Draft

What the operations do to the draft, and when its operator can be used on its field:

```
operation           draft
setDraftField       that field; an operator that the field does not take is dropped
setDraftOperator    that operator, whatever the field
setDraftValue       that value
clearAll            emptied
applyDraft          emptied if it was applied, else kept
other               kept
```

Only the choice of an operator can make a draft *ill-matched*, and the choice of a
field mends it (`isMatched_setDraftField`).  So a draft is matched as long as no
operator was chosen after the field, counted from the start or from where it was
emptied, and a matched draft is never refused for its operator
(`illegalOperator_not_of_isMatched`).
-/

namespace ViewFilters

/-! ## building -/

/-- An operator that is refused is one that the field does not take. -/
theorem Filter.isLegal_of_build_eq {catalog : Catalog} {field field' : String} {op op' : Operator}
    {family : Family} {v : Value}
    (h : build catalog field op v = .error (.illegalOperator field' op' family)) :
    catalog.isLegal field op = false := by
  unfold build at h
  split at h
  · cases h
  split at h
  · cases h
  split at h
  · next hillegal => simpa using hillegal
  split at h
  · cases h
  split at h <;> cases h

/-- The operator of the draft may be used on its field, as far as both were chosen. -/
def Draft.IsMatched (catalog : Catalog) (d : Draft) : Prop :=
  ∀ field op, d.field = some field → d.operator = some op → catalog.isLegal field op = true

theorem Draft.isMatched_of_operator_eq_none {catalog : Catalog} {d : Draft}
    (h : d.operator = none) : d.IsMatched catalog := by
  intro field op _ hop
  rw [h] at hop
  contradiction

theorem Opening.draft_editor (ctx : Context) (o : Opening) :
    (o.editor ctx).draft = Draft.blank := by
  cases o <;> rfl

namespace Editor

variable {ctx : Context} {e : Editor} {a : Action}

/-! ## the draft after an operation -/

/-- The operation empties the draft. -/
def Empties (ctx : Context) (e : Editor) (a : Action) : Prop :=
  a = .clearAll ∨ (a = .applyDraft ∧ (e.applyDraft ctx).result = .ok true)

theorem draft_clearAll (ctx : Context) (e : Editor) : (e.clearAll ctx).state.draft = Draft.blank :=
  draft_settle ctx _ _ _

/-- The draft is emptied when it is applied, and kept otherwise. -/
theorem draft_applyDraft_cases (ctx : Context) (e : Editor) :
    ((e.applyDraft ctx).result = .ok true ∧ (e.applyDraft ctx).state.draft = Draft.blank) ∨
      ((e.applyDraft ctx).result ≠ .ok true ∧ (e.applyDraft ctx).state.draft = e.draft) := by
  unfold applyDraft
  split
  · dsimp only
    split
    · exact Or.inr ⟨nofun, draft_update ..⟩
    · exact Or.inl ⟨rfl, rfl⟩
  · exact Or.inr ⟨nofun, rfl⟩

theorem draft_perform_of_empties (h : e.Empties ctx a) :
    (e.perform ctx a).state.draft = Draft.blank := by
  obtain rfl | ⟨rfl, happlied⟩ := h
  · exact draft_clearAll ctx e
  · obtain ⟨-, hblank⟩ | ⟨hnot, -⟩ := draft_applyDraft_cases ctx e
    · exact hblank
    · exact absurd happlied hnot

/-- An operator stays in the draft exactly when the new field takes it. -/
theorem operator_setDraftField (ctx : Context) (e : Editor) (field : String) (op : Operator) :
    (e.setDraftField ctx field).draft.operator = some op ↔
      e.draft.operator = some op ∧ ctx.catalog.isLegal field op = true :=
  Option.filter_eq_some_iff

/-! ## matched drafts -/

/-- Whatever the draft was, it is matched once a field is chosen. -/
theorem isMatched_setDraftField (ctx : Context) (e : Editor) (field : String) :
    (e.setDraftField ctx field).draft.IsMatched ctx.catalog := by
  intro field' op hfield hop
  obtain rfl : field = field' := Option.some.inj hfield
  exact ((operator_setDraftField ctx e field op).1 hop).2

/-- **Steps**: only the choice of an operator can make a draft ill-matched. -/
theorem isMatched_perform (h : e.draft.IsMatched ctx.catalog)
    (hno : ∀ op, a ≠ .setDraftOperator op) :
    (e.perform ctx a).state.draft.IsMatched ctx.catalog := by
  cases a with
  | update | updateNamed | remove | setPage | setPageSize =>
      rw [draft_perform]
      · exact h
      · trivial
      · nofun
  | clearAll =>
      rw [draft_perform_of_empties (Or.inl rfl)]
      exact Draft.isMatched_of_operator_eq_none rfl
  | setDraftField field => exact isMatched_setDraftField ctx e field
  | setDraftOperator op => exact absurd rfl (hno op)
  | setDraftValue value => exact h
  | applyDraft =>
      rw [perform]
      obtain ⟨-, hdraft⟩ | ⟨-, hdraft⟩ := draft_applyDraft_cases ctx e
      · rw [hdraft]
        exact Draft.isMatched_of_operator_eq_none rfl
      · rwa [hdraft]

/-- **Runs**: without such a choice a matched draft stays one. -/
theorem isMatched_run (h : e.draft.IsMatched ctx.catalog) {as : List Action}
    (hno : ∀ op, .setDraftOperator op ∉ as) : (e.run ctx as).draft.IsMatched ctx.catalog := by
  induction as generalizing e with
  | nil => exact h
  | cons a as ih =>
      refine ih (isMatched_perform h fun op ha => ?_) fun op ha => ?_
      · exact hno op (ha ▸ List.mem_cons_self)
      · exact hno op (List.mem_cons_of_mem a ha)

/-- A matched draft is not refused for its operator: without one it stands for equality, which
every field takes. -/
theorem illegalOperator_not_of_isMatched (h : e.draft.IsMatched ctx.catalog) (field : String)
    (op : Operator) (family : Family) :
    (e.applyDraft ctx).result ≠ .error (.illegalOperator field op family) := by
  intro hresult
  have hrefused : e.IsRefused ctx .applyDraft (.illegalOperator field op family) :=
    result_eq_error_iff.1 hresult
  obtain ⟨field', op', v, hask, -, hbuild⟩ := hrefused
  have hillegal := Filter.isLegal_of_build_eq hbuild
  simp only [asUpdate?] at hask
  split at hask
  · next name raw hfield hraw =>
    simp only [Option.some.injEq, Prod.mk.injEq] at hask
    obtain ⟨rfl, rfl, -⟩ := hask
    cases hop : e.draft.operator with
    | none =>
        rw [hop, Option.getD_none] at hillegal
        rw [show ctx.catalog.isLegal name .fallback = true from ctx.catalog.isLegal_eq name]
          at hillegal
        contradiction
    | some chosen =>
        rw [hop, Option.getD_some, h name chosen hfield hop] at hillegal
        contradiction
  · contradiction

/-! ## the whole -/

/-- No operator was chosen, or a field was chosen after the last one. -/
def ChoosesFieldLast (as : List Action) : Prop :=
  (∀ op, .setDraftOperator op ∉ as) ∨
    ∃ pre field post, as = pre ++ .setDraftField field :: post ∧
      ∀ op, .setDraftOperator op ∉ post

theorem isMatched_run_of_choosesFieldLast (h : e.draft = Draft.blank) {as : List Action}
    (hlast : ChoosesFieldLast as) : (e.run ctx as).draft.IsMatched ctx.catalog := by
  obtain hnone | ⟨pre, field, post, rfl, hpost⟩ := hlast
  · refine isMatched_run (Draft.isMatched_of_operator_eq_none ?_) hnone
    rw [h]
    rfl
  · rw [run_append]
    exact isMatched_run (isMatched_setDraftField ctx _ field) hpost

/-- **Usable drafts**: take any operations on a newly opened editor, and among them the ones
since the start or since one that emptied the draft, be it the last such or not.  If in these
no operator was chosen after the last choice of a field, then the draft is not refused for its
operator when it is applied.  At any time the choice of a field keeps an operator exactly when
the field takes it. -/
theorem draft_not_refused_for_operator (ctx : Context) (o : Opening) :
    (∀ before since : List Action,
      (before = [] ∨ ∃ earlier a, before = earlier ++ [a] ∧
        ((o.editor ctx).run ctx earlier).Empties ctx a) →
      ChoosesFieldLast since →
      ∀ field op family,
        (((o.editor ctx).run ctx (before ++ since)).applyDraft ctx).result ≠
          .error (.illegalOperator field op family)) ∧
    ∀ as field op,
      let e := (o.editor ctx).run ctx as
      (e.setDraftField ctx field).draft.operator = some op ↔
        e.draft.operator = some op ∧ ctx.catalog.isLegal field op = true := by
  refine ⟨fun before since hbefore hlast => ?_, fun as field op => operator_setDraftField ..⟩
  have hblank : ((o.editor ctx).run ctx before).draft = Draft.blank := by
    obtain rfl | ⟨earlier, a, rfl, hempties⟩ := hbefore
    · exact o.draft_editor ctx
    · rw [run_append]
      exact draft_perform_of_empties hempties
  rw [run_append]
  exact illegalOperator_not_of_isMatched (isMatched_run_of_choosesFieldLast hblank hlast)

/-- After a draft was applied, an operator on texts is picked before the fields; it stays for a
free-text field and goes with the choice of a numeric one, which the catalog was extended by. -/
theorem draft_not_refused_for_operator_of_extended :
    let ctx := { Config.standard with numericFields := ["build"] }.context
    let start := (Opening.blank History.empty).editor ctx
    let applied : List Action := [.setDraftField "env", .setDraftValue "prod", .applyDraft]
    let typed : List Action := [.setDraftOperator .contains, .setDraftField "component",
      .update "result" .eq (some (.text "failed")), .setDraftValue "3", .setDraftField "build"]
    (start.run ctx (applied ++ typed)).draft = ⟨some "build", none, some "3"⟩ ∧
      ((start.run ctx (applied ++ typed)).applyDraft ctx).result ≠
        .error (.illegalOperator "build" .contains .numeric) := by
  intro ctx start applied typed
  have happlied : (start.run ctx [.setDraftField "env", .setDraftValue "prod"]).Empties ctx
      .applyDraft := Or.inr ⟨rfl, by decide +kernel⟩
  have hlast : ChoosesFieldLast typed :=
    Or.inr ⟨typed.dropLast, "build", [], rfl, fun op hop => absurd hop List.not_mem_nil⟩
  obtain ⟨husable, -⟩ := draft_not_refused_for_operator ctx (.blank History.empty)
  exact ⟨by decide +kernel, husable applied typed
    (Or.inr ⟨[.setDraftField "env", .setDraftValue "prod"], .applyDraft, rfl, happlied⟩) hlast
    "build" .contains .numeric⟩

end Editor

end ViewFilters
