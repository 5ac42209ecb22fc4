import ViewFilters.Filter.Parameter
import ViewFilters.Proofs.Value.Lists

/-!
# ViewFilters.Proofs.Filter.Recovery

What the lenient reader of parameters does beyond the strict one.  The value of a
parameter has one of three layouts (`layout`):

```
[in]failed;error      the name of an operator in brackets, and a text
[like]fail            another name in brackets, and a text
failed                no brackets
```

1. After an operator's name both readers build the same filter or none.
2. In the other two layouts the strict reader gives up.  The lenient one compares
   for equality with the *fallback text*: what follows the brackets, or the whole
   value when there are none.
3. The lenient reader has nothing to report when the strict one gives a filter.
   Otherwise it has a warning, unless the parameter *clears* its field: an
   operator's name followed by an empty value.
-/

namespace ViewFilters

/-- No name of an operator holds the bracket that closes it. -/
theorem Operator.bracket_notMem_name (op : Operator) : ']' ∉ op.name.toList := by
  cases op <;> decide

theorem Operator.mode_eq_multi_iff {op : Operator} : op.mode = .multi ↔ op = .isIn := by
  cases op <;> simp [mode]

namespace Filter

/-! ## the brackets -/

theorem toList_brackets (name rest : String) :
    ("[" ++ name ++ "]" ++ rest).toList = '[' :: (name.toList ++ ']' :: rest.toList) := by
  simp [String.toList_append]

/-- A name without a closing bracket is found again, whatever follows it. -/
theorem splitBrackets?_append {name : String} (h : ']' ∉ name.toList) (rest : String) :
    splitBrackets? ("[" ++ name ++ "]" ++ rest) = some (name, rest) := by
  unfold splitBrackets?
  rw [toList_brackets]
  simp [cutAt_append_cons h]

/-- The operator and the text after it can be told from the whole. -/
theorem operator_inj {op op' : Operator} {text text' : String}
    (h : "[" ++ op.name ++ "]" ++ text = "[" ++ op'.name ++ "]" ++ text') :
    op = op' ∧ text = text' := by
  have hsplit := congrArg splitBrackets? h
  rw [splitBrackets?_append op.bracket_notMem_name,
    splitBrackets?_append op'.bracket_notMem_name, Option.some.injEq, Prod.mk.injEq] at hsplit
  obtain ⟨hname, htext⟩ := hsplit
  have hop := Operator.ofName?_name op
  rw [hname, Operator.ofName?_name, Option.some.injEq] at hop
  exact ⟨hop.symm, htext⟩

/-- A bracket that is opened at the start and closed later has a first one that closes it. -/
theorem exists_brackets {raw : String} {cs : List Char} (hraw : raw.toList = '[' :: cs)
    (hmem : ']' ∈ cs) :
    ∃ name rest, ']' ∉ name.toList ∧ raw = "[" ++ name ++ "]" ++ rest := by
  obtain ⟨name, rest, hcs, hname⟩ := List.eq_append_cons_of_mem hmem
  refine ⟨String.ofList name, String.ofList rest, by rwa [String.toList_ofList], ?_⟩
  rw [← String.toList_inj, toList_brackets, hraw, hcs, String.toList_ofList, String.toList_ofList]

theorem splitBrackets?_eq_none {raw : String} (h : ∀ name rest, raw ≠ "[" ++ name ++ "]" ++ rest) :
    splitBrackets? raw = none := by
  unfold splitBrackets?
  split
  · next cs hraw =>
    split
    · next hmem =>
      obtain ⟨name, rest, -, heq⟩ := exists_brackets hraw hmem
      exact absurd heq (h name rest)
    · rfl
  · rfl

/-! ## layouts -/

/-- The text that a value without an operator is compared with. -/
inductive Fallback : String → String → Prop where
  | misread {name : String} (hb : ']' ∉ name.toList) (hn : Operator.ofName? name = none)
      (rest : String) : Fallback ("[" ++ name ++ "]" ++ rest) rest
  | missing {raw : String} (h : ∀ name rest, raw ≠ "[" ++ name ++ "]" ++ rest) : Fallback raw raw

/-- The layouts of a parameter's value. -/
inductive Layout : String → Prop where
  | operator (op : Operator) (rest : String) : Layout ("[" ++ op.name ++ "]" ++ rest)
  | fallback {raw text : String} (h : Fallback raw text) : Layout raw

/-- Every value has one of the layouts. -/
theorem layout (raw : String) : Layout raw := by
  by_cases h : ∃ name rest, ']' ∉ name.toList ∧ raw = "[" ++ name ++ "]" ++ rest
  · obtain ⟨name, rest, hb, rfl⟩ := h
    cases hn : Operator.ofName? name with
    | some op =>
        rw [← Operator.name_of_ofName? hn]
        exact .operator op rest
    | none => exact .fallback (.misread hb hn rest)
  · refine .fallback (.missing fun name rest hraw => h ?_)
    exact exists_brackets (hraw ▸ toList_brackets name rest) (by simp)

/-- The parameter asks for no filter: an operator is named, and an empty value follows. -/
def Clears (raw : String) : Prop :=
  ∃ (op : Operator) (rest : String), raw = "[" ++ op.name ++ "]" ++ rest ∧
    (rest = "" ∨ op = .isIn ∧ ∀ c ∈ rest.toList, c = listSeparator)

/-! ## the strict reader -/

variable {catalog : Catalog} {key raw text : String} {op : Operator} {events : List Event}

theorem ofParameter_operator (catalog : Catalog) (key : String) (op : Operator) (rest : String) :
    ofParameter catalog key ("[" ++ op.name ++ "]" ++ rest) =
      build catalog key op (Value.parse op.mode rest) := by
  simp only [ofParameter, splitBrackets?_append op.bracket_notMem_name, Operator.named_name]

theorem Fallback.ofParameter (h : Fallback raw text) (catalog : Catalog) (key : String) :
    ∃ e, ofParameter catalog key raw = .error e := by
  cases h with
  | @misread name hb hn =>
      refine ⟨.unknownOperator name, ?_⟩
      simp only [Filter.ofParameter, splitBrackets?_append hb, Operator.named, hn]
  | missing hraw =>
      refine ⟨.malformed key raw, ?_⟩
      simp only [Filter.ofParameter, splitBrackets?_eq_none hraw]

/-- The strict reader takes an operator's name followed by the text of a filter. -/
theorem ofParameter_eq_ok_iff :
    ofParameter catalog key raw = .ok f ↔
      ∃ op text, raw = "[" ++ op.name ++ "]" ++ text ∧
        build catalog key op (Value.parse op.mode text) = .ok f := by
  constructor
  · intro h
    cases layout raw with
    | operator op text =>
        rw [ofParameter_operator] at h
        exact ⟨op, text, rfl, h⟩
    | fallback hf =>
        obtain ⟨e, he⟩ := hf.ofParameter catalog key
        rw [h] at he
        contradiction
  · rintro ⟨op, text, rfl, h⟩
    rw [ofParameter_operator, h]

/-! ## the lenient reader -/

theorem guess_operator (key : String) (op : Operator) (rest : String) :
    guess key ("[" ++ op.name ++ "]" ++ rest) = (op, rest, []) := by
  simp only [guess, splitBrackets?_append op.bracket_notMem_name, Operator.ofName?_name]

/-- Falling back on equality is reported. -/
theorem Fallback.guess (h : Fallback raw text) (key : String) :
    ∃ event, guess key raw = (.eq, text, [event]) ∧ event.level = .warn := by
  cases h with
  | @misread name hb hn =>
      refine ⟨.operatorMisread key name, ?_, rfl⟩
      simp only [Filter.guess, splitBrackets?_append hb, hn, Operator.fallback]
  | missing hraw =>
      refine ⟨.operatorMissing key raw, ?_, rfl⟩
      simp only [Filter.guess, splitBrackets?_eq_none hraw, Operator.fallback]

/-- What is guessed is built, if it can be. -/
theorem recover_of_ok {f : Filter} (hg : guess key raw = (op, text, events))
    (hb : build catalog key op (Value.parse op.mode text) = .ok f) :
    recover catalog key raw = (some f, events) := by
  have he : (Value.parse op.mode text).isEmpty = false := by
    rw [Bool.eq_false_iff]
    intro he
    obtain ⟨e, herror⟩ := exists_error_of_isEmpty_parse catalog key he
    rw [hb] at herror
    contradiction
  simp [recover, hg, hb, he]

/-- What cannot be built is dropped, in silence when the value is empty. -/
theorem recover_of_error {e : FilterError} (hg : guess key raw = (op, text, events))
    (hb : build catalog key op (Value.parse op.mode text) = .error e) :
    recover catalog key raw =
      (none, if (Value.parse op.mode text).isEmpty then events
        else events ++ [.parameterDropped key raw e]) := by
  simp only [recover, hg, hb]
  split <;> rfl

theorem recover_eq_some_iff {f : Filter} (hg : guess key raw = (op, text, events)) :
    (recover catalog key raw).1 = some f ↔
      build catalog key op (Value.parse op.mode text) = .ok f := by
  cases hb : build catalog key op (Value.parse op.mode text) with
  | ok g => simp [recover_of_ok hg hb]
  | error e => simp [recover_of_error hg hb]

theorem Fallback.recover_eq_some_iff (h : Fallback raw text) {f : Filter} :
    (recover catalog key raw).1 = some f ↔ build catalog key .eq (.text text) = .ok f := by
  obtain ⟨event, hg, -⟩ := h.guess key
  exact Filter.recover_eq_some_iff hg

/-- Equality may be asked of every field that a filter can be on. -/
theorem build_eq_text (catalog : Catalog) (htext : text ≠ "") (hkey : key ≠ "")
    (hres : isReserved key = false) :
    build catalog key .eq (.text text) = .ok ⟨key, .eq, .text text⟩ :=
  build_eq_ok_iff.2 ⟨hkey, hres, catalog.isLegal_eq key, .text text, rfl,
    by simpa [Value.isEmpty] using htext, rfl⟩

/-! ## reports -/

/-- A parameter clears its field when its operator is followed by a text that reads as
an empty value. -/
theorem clears_operator_iff {rest : String} :
    Clears ("[" ++ op.name ++ "]" ++ rest) ↔ (Value.parse op.mode rest).isEmpty = true := by
  rw [Value.isEmpty_parse_iff, Operator.mode_eq_multi_iff]
  constructor
  · rintro ⟨op', rest', hraw, hempty⟩
    obtain ⟨rfl, rfl⟩ := operator_inj hraw
    exact hempty
  · exact fun hempty => ⟨op, rest, rfl, hempty⟩

/-- What falls back on equality does not clear its field. -/
theorem Fallback.not_clears (h : Fallback raw text) : ¬ Clears raw := by
  rintro ⟨op, rest, rfl, -⟩
  obtain ⟨event, hg, -⟩ := h.guess ""
  rw [guess_operator] at hg
  simp at hg

/-- Nothing is reported of what the strict reader takes. -/
theorem events_recover_of_ok {f : Filter} (h : ofParameter catalog key raw = .ok f) :
    (recover catalog key raw).2 = [] := by
  obtain ⟨op, rest, rfl, hb⟩ := ofParameter_eq_ok_iff.1 h
  rw [recover_of_ok (guess_operator key op rest) hb]

theorem recover_of_clears (h : Clears raw) (catalog : Catalog) (key : String) :
    recover catalog key raw = (none, []) ∧ ∃ e, ofParameter catalog key raw = .error e := by
  cases layout raw with
  | operator op rest =>
      have he := clears_operator_iff.1 h
      obtain ⟨e, hb⟩ := exists_error_of_isEmpty_parse catalog key he
      rw [recover_of_error (guess_operator key op rest) hb, if_pos he, ofParameter_operator]
      exact ⟨rfl, e, hb⟩
  | fallback hf => exact absurd h hf.not_clears

/-- Whatever else the strict reader refuses is warned of. -/
theorem exists_warning {e : FilterError} (h : ofParameter catalog key raw = .error e)
    (hc : ¬ Clears raw) : ∃ event ∈ (recover catalog key raw).2, event.level = .warn := by
  cases layout raw with
  | operator op rest =>
      rw [ofParameter_operator] at h
      rw [clears_operator_iff] at hc
      rw [recover_of_error (guess_operator key op rest) h, if_neg hc]
      exact ⟨_, List.mem_singleton.2 rfl, rfl⟩
  | @fallback _ text hf =>
      obtain ⟨event, hg, hwarn⟩ := hf.guess key
      refine ⟨event, ?_, hwarn⟩
      cases hb : build catalog key .eq (Value.parse Operator.eq.mode text) with
      | ok f => simp [recover_of_ok hg hb]
      | error e =>
          rw [recover_of_error hg hb]
          split <;> simp

theorem level_of_mem_guess {event : Event} (h : event ∈ (guess key raw).2.2) :
    event.level = .warn := by
  cases layout raw with
  | operator op rest => simp [guess_operator] at h
  | fallback hf =>
      obtain ⟨reported, hg, hwarn⟩ := hf.guess key
      rw [hg, List.mem_singleton] at h
      rwa [h]

/-- The lenient reader reports warnings only. -/
theorem level_of_mem_recover {event : Event} (h : event ∈ (recover catalog key raw).2) :
    event.level = .warn := by
  obtain ⟨op, text, events, hg⟩ : ∃ op text events, guess key raw = (op, text, events) :=
    ⟨_, _, _, rfl⟩
  have hguess : event ∈ events → event.level = .warn := by
    intro he
    refine @level_of_mem_guess key raw event ?_
    rwa [hg]
  cases hb : build catalog key op (Value.parse op.mode text) with
  | ok f =>
      rw [recover_of_ok hg hb] at h
      exact hguess h
  | error e =>
      rw [recover_of_error hg hb] at h
      split at h
      · exact hguess h
      · obtain h | h := List.mem_append.1 h
        · exact hguess h
        · rw [List.mem_singleton.1 h, Event.level]

/-! ## the two readers -/

/-- **Recovery**: after an operator's name the lenient reader gives the filter that the
strict one gives, and otherwise one for equality with the fallback text, which is
never lost if there is one to build.  What the strict reader takes is read without a
word, and what it refuses with a warning, unless the parameter clears its field. -/
theorem recover_strict_or_fallback (catalog : Catalog) (key raw : String) :
    (∀ (op : Operator) (rest : String), raw = "[" ++ op.name ++ "]" ++ rest →
      ∀ f, (recover catalog key raw).1 = some f ↔ ofParameter catalog key raw = .ok f) ∧
    (∀ text, Fallback raw text →
      (∀ f, (recover catalog key raw).1 = some f ↔ build catalog key .eq (.text text) = .ok f) ∧
      (text ≠ "" → key ≠ "" → isReserved key = false →
        (recover catalog key raw).1 = some ⟨key, .eq, .text text⟩)) ∧
    (∀ f, ofParameter catalog key raw = .ok f → (recover catalog key raw).2 = []) ∧
    (Clears raw →
      recover catalog key raw = (none, []) ∧ ∃ e, ofParameter catalog key raw = .error e) ∧
    (¬ Clears raw → ∀ e, ofParameter catalog key raw = .error e →
      ∃ event ∈ (recover catalog key raw).2, event.level = .warn) := by
  refine ⟨?_, ?_, fun f => events_recover_of_ok, fun h => recover_of_clears h catalog key,
    fun hc e he => exists_warning he hc⟩
  · rintro op rest rfl f
    rw [recover_eq_some_iff (guess_operator key op rest), ofParameter_operator]
  · intro text h
    refine ⟨fun f => h.recover_eq_some_iff, fun htext hkey hres => ?_⟩
    exact h.recover_eq_some_iff.2 (build_eq_text catalog htext hkey hres)

/-- Of a numeric field: an operator that there is not falls back on equality, one that the
field does not take is warned of, and a list of nothing clears the field. -/
theorem recover_strict_or_fallback_of_duration :
    let read := recover Catalog.builtin "duration"
    Fallback "[like]5" "5" ∧ (read "[like]5").1 = some ⟨"duration", .eq, .text "5"⟩ ∧
      (¬ Clears "[contains]5" ∧ (read "[contains]5").1 = none ∧
        ∃ event ∈ (read "[contains]5").2, event.level = .warn) ∧
      Clears "[in];;" ∧ read "[in];;" = (none, []) := by
  intro read
  have hlike : Fallback "[like]5" "5" := @Fallback.misread "like" (by decide) (by decide) "5"
  have hclears : Clears "[in];;" := ⟨.isIn, ";;", rfl, Or.inr ⟨rfl, by simp [listSeparator]⟩⟩
  have hnot : ¬ Clears ("[" ++ Operator.contains.name ++ "]" ++ "5") := by
    rw [clears_operator_iff]
    decide
  have hrefused : ofParameter Catalog.builtin "duration" "[contains]5" =
      .error (.illegalOperator "duration" .contains .numeric) :=
    ofParameter_operator Catalog.builtin "duration" .contains "5"
  obtain ⟨-, hfallback, -⟩ := recover_strict_or_fallback Catalog.builtin "duration" "[like]5"
  obtain ⟨hstrict, -, -, -, hwarned⟩ :=
    recover_strict_or_fallback Catalog.builtin "duration" "[contains]5"
  obtain ⟨-, -, -, hsilent, -⟩ := recover_strict_or_fallback Catalog.builtin "duration" "[in];;"
  have hdropped : (read "[contains]5").1 = none := by
    rw [Option.eq_none_iff_forall_ne_some]
    intro f hf
    rw [hstrict .contains "5" rfl, hrefused] at hf
    contradiction
  exact ⟨hlike, (hfallback "5" hlike).2 (by decide) (by decide) (by decide),
    ⟨hnot, hdropped, hwarned hnot _ hrefused⟩, hclears, (hsilent hclears).1⟩

end Filter

end ViewFilters
