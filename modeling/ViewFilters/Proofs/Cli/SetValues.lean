import ViewFilters.Proofs.Cli.Chain
import ViewFilters.Proofs.Editor.Frame
import ViewFilters.Proofs.View.RawInput

/-!
# ViewFilters.Proofs.Cli.SetValues

The command that filters on a list of values.  The values go a long way, to the link that is
printed and back:

```
[v, w] → "v;w" → [v, w] → filter → "field=%5Bin%5Dv%3Bw" → filter
```

1. Values without a `;` come whole out of the joined text, empty ones and single ones too, so
   the edit is an update with the list.
2. A view that is opened on the link has the filter in the place of the one on the field, or
   last.  A filter on the project that is hidden is not in the link; the view adds one again.
3. Without a value that is not empty, the edit is a removal.

The statement on commands is `set_stores_values`.
-/

namespace ViewFilters

/-! ## a filter put in, as links show it -/

/-- What links show of the second criteria: the first ones with a filter put into them, and the
first page. -/
structure ShowsPut (policy : Policy) (before : Criteria) (f : Filter) (after : Criteria) :
    Prop where
  found : after.on? f.field = some f
  replaced : ∀ old, before.on? f.field = some old → ∃ earlier later,
    before.visible policy = earlier ++ old :: later ∧
      after.visible policy = earlier ++ f :: later
  added : before.on? f.field = none → after.visible policy = before.visible policy ++ [f]
  page : after.page = 1
  pageSize : after.pageSize = before.pageSize

theorem showsPut_of_visible_eq {policy : Policy} {before after : Criteria} {f : Filter}
    (hshown : policy.isHidden f.field = false)
    (hvisible : after.visible policy = (before.put f).visible policy)
    (hpagination : after.pagination = ⟨1, before.pageSize⟩) : ShowsPut policy before f after := by
  have hput : after.visible policy = Selection.put (before.visible policy) f := by
    simp [hvisible, Criteria.visible_put, hshown]
  refine ⟨?found, ?replaced, ?added, ?page, ?pageSize⟩
  case found => rw [← Criteria.on?_visible hshown, hput, Selection.on?_put_self]
  case replaced =>
    intro old hold
    rw [← Criteria.on?_visible hshown] at hold
    rw [hput]
    exact Selection.exists_put_of_on? hold
  case added =>
    intro hnone
    rw [← Criteria.on?_visible hshown, Selection.on?_eq_none_iff] at hnone
    rw [hput, Selection.put_of_notMem hnone]
  case page => rw [Criteria.page, hpagination]
  case pageSize => rw [Criteria.pageSize, hpagination]

namespace Cli

variable {ctx : Context} {field : String} {values : List String}

/-! ## the edit -/

theorem carryOut_singleton {β : Type} (ctx : Context) (v : View β) (a : Action) :
    carryOut ctx v [a] = v.edit ctx a 0 := by
  simp only [carryOut]
  split
  · next e he => rw [← he]
  · next changed hok => simp [Except.map, ← hok]

/-- The values of an edit come whole out of their joined text. -/
theorem carryOut_set_in {β : Type} (ctx : Context) (v : View β) (field : String)
    (h : ∀ s ∈ values, listSeparator ∉ s.toList) :
    carryOut ctx v (Edit.set field "in" values).actions =
      v.edit ctx (.update field .isIn (if values = [] then none else some (.list values))) 0 := by
  rw [Edit.actions, carryOut_singleton]
  refine View.edit_congr ?_ 0
  have hname : ∀ raw, v.editor.perform ctx (.updateNamed field "in" raw) =
      v.editor.update ctx field .isIn (raw.map (Value.parse .multi)) :=
    Editor.updateNamed_name ctx v.editor field .isIn
  rw [hname, Editor.perform]
  split
  · rfl
  · next hne => rw [Option.map_some, Value.parse, Value.splitList_joinList hne h]

/-- What an update comes to when it does not fail. -/
theorem outcome_update {v : View Json} {op : Operator} {value : Option Value}
    {s : Step Editor Bool} (h : v.editor.update ctx field op value = s.map .ok) :
    outcome ctx (v.edit ctx (.update field op value) 0) =
      .ok (s.state.criteria.query ctx.policy) := by
  simp [outcome, View.edit, Editor.perform, View.query, Editor.query, Except.map, h]

/-- Values that are not all empty come to a filter that is put in. -/
theorem outcome_set_in_of_build (v : View Json) {f : Filter}
    (hne : (Value.list values).isEmpty = false) (hsep : ∀ s ∈ values, listSeparator ∉ s.toList)
    (hbuild : Filter.build ctx.catalog field .isIn (.list values) = .ok f) :
    outcome ctx (carryOut ctx v (Edit.set field "in" values).actions) =
      .ok (((v.editor.criteria.put f).withPage 1).query ctx.policy) := by
  have hvalues : values ≠ [] := by
    rintro rfl
    contradiction
  obtain ⟨changed, hupdate⟩ := Editor.update_of_build (e := v.editor) hne hbuild
  rw [carryOut_set_in ctx v field hsep, if_neg hvalues, outcome_update hupdate,
    Editor.criteria_settle]

/-- Without a value, or with empty ones only, an edit comes to a removal. -/
theorem outcome_set_in_of_empty (ctx : Context) (v : View Json) (field : String)
    (h : ∀ s ∈ values, s = "") :
    outcome ctx (carryOut ctx v (Edit.set field "in" values).actions) =
      .ok ((v.editor.remove ctx field).state.criteria.query ctx.policy) := by
  have hsep : ∀ s ∈ values, listSeparator ∉ s.toList := by
    intro s hs
    simp [h s hs]
  have hempty : ∀ w ∈ (if values = [] then none else some (Value.list values)),
      w.isEmpty = true := by
    split
    · simp
    · simpa [Value.isEmpty] using h
  rw [carryOut_set_in ctx v field hsep, outcome_update (Editor.update_of_empty hempty)]

/-! ## the command -/

/-- An edit that does not fail is answered with the link that it comes to. -/
theorem respondEdit_of_outcome {query link : String} {edit : Edit} (colors : Bool)
    (file : ConfigFile)
    (h : outcome ctx (carryOut ctx (openView ctx query).1 edit.actions) = .ok link) :
    (respondEdit colors ctx file query edit).code = 0 ∧
      (respondEdit colors ctx file query edit).stdout = line link := by
  have htells := tells_respondEdit colors ctx file query edit
  rwa [h] at htells

/-- Reopenable criteria with a filter put into them, as a view of their link shows them. -/
theorem showsPut_openView {c : Criteria} {f : Filter} (h : Reopenable ctx c)
    (hf : f.Valid ctx.catalog) (hs : f.value.Separable)
    (hshown : ctx.policy.isHidden f.field = false) :
    ShowsPut ctx.policy c f
      (openView ctx (((c.put f).withPage 1).query ctx.policy)).1.editor.criteria := by
  have hput : Reopenable ctx ((c.put f).withPage 1) :=
    ⟨(h.linkable.put hf hs).withPage (by decide), h.project.put f⟩
  obtain ⟨hvisible, hpagination⟩ := visible_openView_query hput
  exact showsPut_of_visible_eq hshown hvisible hpagination

/-- **Values stored**: `set` with the operator `in` and values without a `;`, on a field that takes
the operator and is not hidden, prints a query such that a view of it has the filter with exactly
these values, where the old one on the field was or else last; the other filters that links show
and the page size are those of a view of the query that was given, and the page is the first.
With no value, or only empty ones, the query of that view is printed, without the filter on the
field and for the first page, unless nothing is done because the field is protected or has no
filter. -/
theorem set_stores_values (colors : Bool) (config : Config) (dir : String) (file : ConfigFile)
    (query field : String) (values : List String) :
    let ctx := config.context
    let before := (openView ctx query).1.editor.criteria
    let response := respond colors config dir file (.edit query (.set field "in" values))
    (field ≠ "" → isReserved field = false → ctx.policy.isHidden field = false →
      ctx.catalog.isLegal field .isIn = true → (∀ s ∈ values, listSeparator ∉ s.toList) →
      (∃ s ∈ values, s ≠ "") → ∃ printed, response.code = 0 ∧ response.stdout = line printed ∧
        ShowsPut ctx.policy before ⟨field, .isIn, .list values⟩
          (openView ctx printed).1.editor.criteria) ∧
    ((∀ s ∈ values, s = "") → response.code = 0 ∧ response.stdout = line
      (if ctx.policy.isProtected field = true ∨ before.on? field = none then
        before.query ctx.policy
      else ((before.without field).withPage 1).query ctx.policy)) := by
  intro ctx before response
  have hrespond : response = respondEdit colors ctx file query (.set field "in" values) := rfl
  rw [hrespond]
  constructor
  · intro hfield hreserved hshown hlegal hsep hvalue
    have hne : (Value.list values).isEmpty = false := by simpa [Value.isEmpty] using hvalue
    have hbuild : Filter.build ctx.catalog field .isIn (.list values) =
        .ok ⟨field, .isIn, .list values⟩ :=
      Filter.build_eq_ok_iff.2 ⟨hfield, hreserved, hlegal, _, rfl, hne, rfl⟩
    have hputs := outcome_set_in_of_build (openView ctx query).1 hne hsep hbuild
    obtain ⟨hcode, hstdout⟩ := respondEdit_of_outcome colors file hputs
    have hf : (⟨field, .isIn, .list values⟩ : Filter).Valid ctx.catalog :=
      Filter.valid_of_build hbuild
    have hshows := showsPut_openView (reopenable_openView ctx query) hf hsep hshown
    exact ⟨_, hcode, hstdout, hshows⟩
  · intro hempty
    have hremoves := outcome_set_in_of_empty ctx (openView ctx query).1 field hempty
    obtain ⟨hcode, hstdout⟩ := respondEdit_of_outcome colors file hremoves
    rw [Editor.criteria_remove, apply_ite (Criteria.query · ctx.policy)] at hstdout
    exact ⟨hcode, hstdout⟩

/-- An empty value, a blank and escapes are put in the place of another filter, and one empty value
takes that filter away; the filter on the project is not in the links. -/
theorem set_stores_values_of_escapes :
    let config : Config :=
      { Config.standard with projectId := some "p", hiddenFields := ["project_id"] }
    let query := "?result=[eq]failed&env=[eq]prod&page=3&pageSize=50"
    let values := ["", "a b", "[é]&"]
    let before : Criteria :=
      ⟨[⟨"result", .eq, .text "failed"⟩, ⟨"env", .eq, .text "prod"⟩,
        ⟨projectField, .eq, .text "p"⟩], ⟨3, 50⟩⟩
    (openView config.context query).1.editor.criteria = before ∧
      (∃ printed,
        (respond false config "" .vacant (.edit query (.set "result" "in" values))).stdout =
          line printed ∧
        ShowsPut config.context.policy before ⟨"result", .isIn, .list values⟩
          (openView config.context printed).1.editor.criteria) ∧
      (respond false config "" .vacant (.edit query (.set "result" "in" [""]))).stdout =
        line "env=%5Beq%5Dprod&page=1&pageSize=50" := by
  intro config query values before
  have hbefore : (openView config.context query).1.editor.criteria = before := by
    decide +kernel
  have hsep : ∀ s ∈ values, listSeparator ∉ s.toList := by simp [values, listSeparator]
  have hvalue : ∃ s ∈ values, s ≠ "" := ⟨"a b", by simp [values], by decide⟩
  obtain ⟨hputs, -⟩ := set_stores_values false config "" .vacant query "result" values
  obtain ⟨-, hremoves⟩ := set_stores_values false config "" .vacant query "result" [""]
  obtain ⟨printed, -, hstdout, hshows⟩ :=
    hputs (by decide) (by decide) (by decide) (by decide) hsep hvalue
  have hremoved := (hremoves (by simp)).2
  rw [hbefore] at hshows hremoved
  have hlink : ((before.without "result").withPage 1).query config.context.policy =
      "env=%5Beq%5Dprod&page=1&pageSize=50" := by
    decide +kernel
  rw [if_neg (by decide), hlink] at hremoved
  exact ⟨hbefore, ⟨printed, hstdout, hshows⟩, hremoved⟩

end Cli

end ViewFilters
