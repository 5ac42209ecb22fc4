import ViewFilters.Config
import ViewFilters.Proofs.Filter.Recovery
import ViewFilters.Proofs.View.Session

/-!
# ViewFilters.Proofs.View.RawInput

A filter from raw input can be entered in three ways:

```
draft    the field, the operator and the text are entered, then the draft is applied
named    an update with the name of the operator and the text
direct   an update with the operator and the text as a value
```

The first two read the text in the mode of the operator before they see whether it is empty;
the third looks at the text itself and leaves the reading to the building of the filter.
All come to the same, unless the operator takes a list and the text holds nothing but
separators:

```
in       draft, named        direct
""       removed             removed
"a;b"    [a, b]              [a, b]
";;"     removed             refused
```

The statement on views is `raw_inputs_agree`.
-/

namespace ViewFilters

/-! ## reading before building -/

/-- Reading a text in the mode of an operator is part of giving it the shape that the
operator wants. -/
theorem Value.coerce_parse (m : Mode) (raw : String) :
    coerce m (parse m raw) = coerce m (.text raw) := by
  cases m <;> rfl

theorem Filter.build_parse (catalog : Catalog) (field : String) (op : Operator) (raw : String) :
    build catalog field op (Value.parse op.mode raw) = build catalog field op (.text raw) := by
  simp only [build, Value.coerce_parse]

/-- The text is not empty and holds nothing but the separator of lists. -/
def OnlySeparators (raw : String) : Prop := raw ≠ "" ∧ ∀ c ∈ raw.toList, c = listSeparator

theorem OnlySeparators.isEmpty_parse {raw : String} (h : OnlySeparators raw) :
    (Value.parse Operator.isIn.mode raw).isEmpty = true :=
  Value.isEmpty_parse_iff.2 (Or.inr ⟨rfl, h.2⟩)

/-- But for separators under an operator on lists, what reads as an empty value is empty. -/
theorem Value.isEmpty_parse_eq {op : Operator} {raw : String}
    (h : ¬ (op = .isIn ∧ OnlySeparators raw)) :
    (parse op.mode raw).isEmpty = (Value.text raw).isEmpty := by
  rw [Bool.eq_iff_iff, isEmpty_parse_iff, Operator.mode_eq_multi_iff]
  have htext : (Value.text raw).isEmpty = true ↔ raw = "" := by simp [isEmpty]
  rw [htext]
  apply or_iff_left_of_imp
  intro hlist
  apply Classical.not_not.1
  intro hne
  exact h ⟨hlist.1, hne, hlist.2⟩

theorem Operator.orFallback_name (op : Operator) : orFallback op.name = (op, []) := by
  simp only [orFallback, ofName?_name]

/-! ## the three ways -/

namespace Editor

variable {ctx : Context} {e : Editor} {field raw : String} {op : Operator}

/-- An operator is known by its name. -/
theorem updateNamed_name (ctx : Context) (e : Editor) (field : String) (op : Operator)
    (raw : Option String) :
    e.updateNamed ctx field op.name raw =
      e.update ctx field op (raw.map (Value.parse op.mode)) := by
  simp only [updateNamed, Operator.orFallback_name, List.nil_append]

/-- But for separators under an operator on lists, a text may be read first or left as it is. -/
theorem update_parse (h : ¬ (op = .isIn ∧ OnlySeparators raw)) :
    e.update ctx field op (some (Value.parse op.mode raw)) =
      e.update ctx field op (some (.text raw)) := by
  have hsame := Value.isEmpty_parse_eq h
  cases htext : (Value.text raw).isEmpty with
  | true => rw [update_of_isEmpty htext, update_of_isEmpty (hsame.trans htext)]
  | false =>
      simp only [update, filter_some_of_isEmpty htext,
        filter_some_of_isEmpty (hsame.trans htext), Filter.build_parse]

/-- Separators that are read first ask for the filter to be gone. -/
theorem update_parse_of_onlySeparators (h : OnlySeparators raw) :
    e.update ctx field .isIn (some (Value.parse Operator.isIn.mode raw)) =
      (e.remove ctx field).map .ok :=
  update_of_isEmpty h.isEmpty_parse

/-- Separators that are left as they are give no filter. -/
theorem update_text_of_onlySeparators (h : OnlySeparators raw) :
    ∃ err, e.update ctx field .isIn (some (.text raw)) = ⟨e, [], .error err⟩ := by
  obtain ⟨err, hbuild⟩ := Filter.exists_error_of_isEmpty_parse ctx.catalog field h.isEmpty_parse
  rw [Filter.build_parse] at hbuild
  have htext : (Value.text raw).isEmpty = false := by simpa [Value.isEmpty] using h.1
  exact ⟨err, by simp only [update, filter_some_of_isEmpty htext, hbuild]⟩

/-! ### the draft -/

/-- A complete draft is an update by its parts, with equality for a missing operator.  It is
emptied when the update succeeds. -/
theorem applyDraft_of_complete (hfield : e.draft.field = some field)
    (hraw : e.draft.value = some raw) (hop : e.draft.operator.getD .eq = op) :
    let s := e.update ctx field op (some (Value.parse op.mode raw))
    (e.applyDraft ctx).state.criteria = s.state.criteria ∧
      (e.applyDraft ctx).state.history = s.state.history ∧
      (∀ err, (e.applyDraft ctx).result = .error err ↔ s.result = .error err) ∧
      ∀ answer, (e.applyDraft ctx).result = .ok answer →
        answer = true ∧ (e.applyDraft ctx).state.draft = Draft.blank := by
  intro s
  have hop : e.draft.operator.getD .fallback = op := hop
  simp only [applyDraft, hfield, hraw, hop]
  split
  · next err herr =>
    refine ⟨rfl, rfl, fun err' => ?_, fun answer h => by contradiction⟩
    rw [show s.result = .error err from herr]
  · next b hb =>
    refine ⟨rfl, rfl, fun err' => ?_, fun answer h => ⟨(Except.ok.inj h).symm, rfl⟩⟩
    rw [show s.result = .ok b from hb]
    exact iff_of_false (fun h => by contradiction) (fun h => by contradiction)

/-- A draft without a field or without a text does nothing. -/
theorem applyDraft_of_incomplete (h : e.draft.field = none ∨ e.draft.value = none) :
    e.applyDraft ctx = e.stay.map .ok := by
  unfold applyDraft
  split
  · next field raw hfield hraw =>
    obtain hnone | hnone := h
    · rw [hfield] at hnone
      contradiction
    · rw [hraw] at hnone
      contradiction
  · rfl

end Editor

/-! ## views -/

theorem View.edit_congr {β : Type} {ctx : Context} {v : View β} {a b : Action}
    (h : v.editor.perform ctx a = v.editor.perform ctx b) (now : Nat) :
    v.edit ctx a now = v.edit ctx b now := by
  simp only [edit, h]

theorem View.perform_updateNamed_name {β : Type} (ctx : Context) (v : View β) (field : String)
    (op : Operator) (raw : String) :
    v.editor.perform ctx (.updateNamed field op.name (some raw)) =
      v.editor.update ctx field op (some (Value.parse op.mode raw)) :=
  Editor.updateNamed_name ctx v.editor field op (some raw)

/-- Nothing but separators, under the operator on lists. -/
theorem View.edit_of_onlySeparators {β : Type} {ctx : Context} {v : View β} {raw : String}
    (h : OnlySeparators raw) (field : String) (now : Nat) :
    let direct := v.edit ctx (.update field .isIn (some (.text raw))) now
    (∃ err, direct.result = .error err) ∧ direct.state = v ∧
      v.edit ctx (.updateNamed field Operator.isIn.name (some raw)) now =
        v.edit ctx (.remove field) now := by
  intro direct
  obtain ⟨err, hupdate⟩ := @Editor.update_text_of_onlySeparators ctx v.editor field raw h
  have hdirect : v.editor.perform ctx (.update field .isIn (some (.text raw))) =
      ⟨v.editor, [], .error err⟩ := hupdate
  have hrefused := congrArg Step.result hdirect
  have hnamed := v.perform_updateNamed_name ctx field .isIn raw
  rw [Editor.update_parse_of_onlySeparators h] at hnamed
  exact ⟨⟨err, hrefused⟩, state_edit_of_error now hrefused, edit_congr hnamed now⟩

/-- **Raw input**: a draft of a field, an operator and a text comes to what an update with the
operator's name and the text comes to; it is emptied when that succeeds and kept when it fails,
and nothing is done while the field or the text is missing.  An update with the name is the
update with the operator and the text as a value, except for a text of nothing but separators
under the operator on lists: the one with the name is then the removal of the filter on the
field, and the other fails and changes nothing. -/
theorem View.raw_inputs_agree {β : Type} (ctx : Context) (v : View β) (field : String)
    (op : Operator) (raw : String) (now : Nat) :
    let drafted := v.edit ctx .applyDraft now
    let named := v.edit ctx (.updateNamed field op.name (some raw)) now
    let direct := v.edit ctx (.update field op (some (.text raw))) now
    let removed := v.edit ctx (.remove field) now
    (v.editor.draft.field = some field → v.editor.draft.value = some raw →
      v.editor.draft.operator.getD .eq = op →
        drafted.state.editor.criteria = named.state.editor.criteria ∧
        drafted.state.editor.history = named.state.editor.history ∧
        (∀ err, drafted.result = .error err ↔ named.result = .error err) ∧
        (∀ answer, drafted.result = .ok answer →
          answer = true ∧ drafted.state.editor.draft = Draft.blank) ∧
        ∀ err, drafted.result = .error err → drafted.state = v) ∧
    (v.editor.draft.field = none ∨ v.editor.draft.value = none →
      drafted.result = .ok false ∧ drafted.state = v) ∧
    (direct = named ↔ ¬ (op = .isIn ∧ OnlySeparators raw)) ∧
    (op = .isIn ∧ OnlySeparators raw →
      (∃ err, direct.result = .error err) ∧ direct.state = v ∧
        named = removed ∧ ∃ answer, removed.result = .ok answer) := by
  intro drafted named direct removed
  have hnamed := v.perform_updateNamed_name ctx field op raw
  have hseparators : op = .isIn ∧ OnlySeparators raw →
      (∃ err, direct.result = .error err) ∧ direct.state = v ∧
        named = removed ∧ ∃ answer, removed.result = .ok answer := by
    rintro ⟨rfl, hsep⟩
    obtain ⟨hfailed, hkept, hremoved⟩ := @edit_of_onlySeparators β ctx v raw hsep field now
    exact ⟨hfailed, hkept, hremoved, _, rfl⟩
  refine ⟨fun hfield hraw hop => ?_, fun hmissing => ?_, ⟨fun hsame hsep => ?_, fun h => ?_⟩,
    hseparators⟩
  · obtain ⟨hcriteria, hhistory, herror, hok⟩ :=
      @Editor.applyDraft_of_complete ctx v.editor field raw op hfield hraw hop
    rw [← hnamed] at hcriteria hhistory herror
    exact ⟨hcriteria, hhistory, herror, hok, fun err hfailed => state_edit_of_error now hfailed⟩
  · have hstay : v.editor.perform ctx .applyDraft = v.editor.stay.map .ok :=
      Editor.applyDraft_of_incomplete hmissing
    have hunchanged := congrArg Step.result hstay
    exact ⟨hunchanged, state_edit_eq_self now hunchanged (congrArg Step.state hstay)⟩
  · obtain ⟨⟨err, herr⟩, -, hremoved, answer, hanswer⟩ := hseparators hsep
    rw [hsame, hremoved, hanswer] at herr
    contradiction
  · exact edit_congr (Eq.symm (hnamed.trans (Editor.update_parse h))) now

/-- Two separators, typed into a draft for a field that is filtered on, take the filter away,
as they do with the name of the operator; as a value they are refused. -/
theorem View.raw_inputs_agree_of_separators :
    let ctx := Config.standard.context
    let mounted : View Unit := (View.mount ctx (History.start "?result=a") 0).1
    let e := mounted.editor.run ctx
      [.setDraftField "result", .setDraftOperator .isIn, .setDraftValue ";;"]
    let v := { mounted with editor := e }
    let drafted := v.edit ctx .applyDraft 10
    let named := v.edit ctx (.updateNamed "result" "in" (some ";;")) 10
    let direct := v.edit ctx (.update "result" .isIn (some (.text ";;"))) 10
    v.editor.draft = ⟨some "result", some .isIn, some ";;"⟩ ∧
      drafted.state.editor.criteria = named.state.editor.criteria ∧
      drafted.state.editor.draft = Draft.blank ∧
      OnlySeparators ";;" ∧ named = v.edit ctx (.remove "result") 10 ∧
      (∃ err, direct.result = .error err) ∧ direct.state = v := by
  intro ctx mounted e v drafted named direct
  have hdraft : v.editor.draft = ⟨some "result", some .isIn, some ";;"⟩ := rfl
  have hok : drafted.result = .ok true := rfl
  have hseparators : OnlySeparators ";;" := by
    simp [OnlySeparators, listSeparator]
  obtain ⟨hcomplete, -, -, hrefused⟩ := v.raw_inputs_agree ctx "result" .isIn ";;" 10
  obtain ⟨hcriteria, -, -, hemptied, -⟩ := hcomplete rfl rfl rfl
  obtain ⟨herror, hstate, hremoved, -⟩ := hrefused ⟨rfl, hseparators⟩
  exact ⟨hdraft, hcriteria, (hemptied true hok).2, hseparators, hremoved, herror, hstate⟩

end ViewFilters
