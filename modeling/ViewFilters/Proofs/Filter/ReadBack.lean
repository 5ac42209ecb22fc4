import ViewFilters.Proofs.Filter.Recovery

/-!
# ViewFilters.Proofs.Filter.ReadBack

A valid filter with a separable value is read back from the parameter

```
field = [operator]text
```

that stands for it, by the strict reader (`ofParameter_parameter`) and by the
lenient one without a recovery (`recover_parameter`).  What the lenient reader
lets through is again such a filter (`valid_of_recover`, `separable_of_recover`).

A list with a separator in one of its elements is never read back: what is read
has the pieces of the whole text as its elements, if there is anything in them
(`parameter_read_exactly`).
-/

namespace ViewFilters.Filter

/-! ## reading back -/

variable {catalog : Catalog} {f : Filter}

theorem build_parse_render (hf : f.Valid catalog) (hs : f.value.Separable) :
    build catalog f.field f.operator (Value.parse f.operator.mode f.value.render) = .ok f := by
  have hv := Value.coerce_parse_render hs hf.nonempty
  rw [hf.shape] at hv
  exact build_of_coerce hf hv

/-- The strict reader gives a filter back. -/
theorem ofParameter_parameter (hf : f.Valid catalog) (hs : f.value.Separable) :
    ofParameter catalog f.field f.parameter.2 = .ok f := by
  rw [parameter, ofParameter_operator]
  exact build_parse_render hf hs

/-- The lenient reader gives a filter back, and has nothing to report. -/
theorem recover_parameter (hf : f.Valid catalog) (hs : f.value.Separable) :
    recover catalog f.field f.parameter.2 = (some f, []) :=
  recover_of_ok (guess_operator f.field f.operator f.value.render) (build_parse_render hf hs)

/-! ## what is read -/

/-- What the lenient reader lets through was built from a text. -/
theorem build_of_recover {key raw : String} (h : (recover catalog key raw).1 = some f) :
    ∃ op text, build catalog key op (Value.parse op.mode text) = .ok f := by
  obtain ⟨op, rest, events, hguess⟩ : ∃ op rest events, guess key raw = (op, rest, events) :=
    ⟨_, _, _, rfl⟩
  exact ⟨op, rest, (recover_eq_some_iff hguess).1 h⟩

theorem field_of_recover {key raw : String} (h : (recover catalog key raw).1 = some f) :
    f.field = key := by
  obtain ⟨op, text, hb⟩ := build_of_recover h
  exact field_of_build hb

theorem valid_of_recover {key raw : String} (h : (recover catalog key raw).1 = some f) :
    f.Valid catalog := by
  obtain ⟨op, text, hb⟩ := build_of_recover h
  exact valid_of_build hb

theorem separable_of_recover {key raw : String} (h : (recover catalog key raw).1 = some f) :
    f.value.Separable := by
  obtain ⟨op, text, hb⟩ := build_of_recover h
  exact separable_of_build (fun _ => Value.separable_parse _ _) hb

/-! ## lists that hold the separator -/

theorem build_list (hf : f.Valid catalog) (hm : f.operator.mode = .multi) (items : List String) :
    build catalog f.field f.operator (.list items) =
      if (Value.list items).isEmpty then .error (.invalidValue f.field .empty)
      else .ok { f with value := .list items } := by
  simp [build, hf.field_ne, hf.unreserved, hf.legal, hm, Value.coerce]

/-- A text after an operator on lists is read as the list of its pieces. -/
theorem readers_of_pieces (hf : f.Valid catalog) (hm : f.operator.mode = .multi) {text : String}
    (he : (Value.list (splitList text)).isEmpty = false) :
    let raw := "[" ++ f.operator.name ++ "]" ++ text
    let g : Filter := { f with value := .list (splitList text) }
    ofParameter catalog f.field raw = .ok g ∧ recover catalog f.field raw = (some g, []) := by
  intro raw g
  have hb : build catalog f.field f.operator (Value.parse f.operator.mode text) = .ok g := by
    rw [hm, Value.parse, build_list hf hm, he]
    rfl
  exact ⟨(ofParameter_operator catalog f.field f.operator text).trans hb,
    recover_of_ok (guess_operator f.field f.operator text) hb⟩

/-- Separators alone after an operator on lists are an empty value to both readers. -/
theorem readers_of_separators (hf : f.Valid catalog) (hm : f.operator.mode = .multi)
    {text : String} (he : (Value.list (splitList text)).isEmpty = true) :
    let raw := "[" ++ f.operator.name ++ "]" ++ text
    ofParameter catalog f.field raw = .error (.invalidValue f.field .empty) ∧
      recover catalog f.field raw = (none, []) := by
  intro raw
  have hparse : Value.parse f.operator.mode text = .list (splitList text) := by
    rw [hm, Value.parse]
  have hb : build catalog f.field f.operator (Value.parse f.operator.mode text) =
      .error (.invalidValue f.field .empty) := by
    rw [hparse, build_list hf hm, if_pos he]
  have hr := recover_of_error (guess_operator f.field f.operator text) hb
  rw [if_pos (hparse ▸ he)] at hr
  exact ⟨(ofParameter_operator catalog f.field f.operator text).trans hb, hr⟩

/-- **Exact read-back**: a filter is read back from its parameter by both readers, unless
it has a list with a separator in some element.  Then what is read is never the filter
but the list of all pieces of the text, or nothing if the text is all separators. -/
theorem parameter_read_exactly {field : String} {op : Operator} {v : Value}
    (hb : build catalog field op v = .ok f) :
    let read := ofParameter catalog f.parameter.1 f.parameter.2
    let recovered := (recover catalog f.parameter.1 f.parameter.2).1
    (f.value.Separable → read = .ok f ∧ recovered = some f) ∧
    ∀ items, f.value = .list items → (∃ s ∈ items, listSeparator ∈ s.toList) →
      let text := joinList items
      let g : Filter := { f with value := .list (splitList text) }
      g ≠ f ∧
        ((∃ c ∈ text.toList, c ≠ listSeparator) → read = .ok g ∧ recovered = some g) ∧
        ((∀ c ∈ text.toList, c = listSeparator) →
          read = .error (.invalidValue f.field .empty) ∧ recovered = none) := by
  intro read recovered
  have hf : f.Valid catalog := valid_of_build hb
  constructor
  · intro hs
    exact ⟨ofParameter_parameter hf hs, congrArg Prod.fst (recover_parameter hf hs)⟩
  rintro items hv ⟨s, hs, hsep⟩ text g
  have hm : f.operator.mode = .multi := by
    rw [← hf.shape, hv, Value.shape]
  have hraw : f.parameter.2 = "[" ++ f.operator.name ++ "]" ++ text := by
    rw [parameter, hv, Value.render]
  refine ⟨?_, ?_, ?_⟩
  · intro hg
    have hpieces : f.value.Separable := by
      rw [← hg]
      exact Value.separable_parse .multi text
    rw [hv] at hpieces
    exact hpieces s hs hsep
  · rintro ⟨c, hc, hne⟩
    have he : (Value.list (splitList text)).isEmpty = false := by
      rw [Bool.eq_false_iff, ne_eq, Value.isEmpty_list_splitList_iff]
      exact fun hall => hne (hall c hc)
    have hr := readers_of_pieces hf hm he
    rw [← hraw] at hr
    exact ⟨hr.1, congrArg Prod.fst hr.2⟩
  · intro hall
    have hr := readers_of_separators hf hm (Value.isEmpty_list_splitList_iff.2 hall)
    rw [← hraw] at hr
    exact ⟨hr.1, congrArg Prod.fst hr.2⟩

/-- Of two lists with a separator in an element the first comes apart, and the second,
which is not empty, reads as an empty value. -/
theorem parameter_read_exactly_of_separators :
    let catalog := Catalog.builtin
    let f : Filter := ⟨"result", .isIn, .list ["a;[ne]", ""]⟩
    let g : Filter := ⟨"result", .isIn, .list ["", ";"]⟩
    (build catalog "result" .isIn f.value = .ok f ∧
      ofParameter catalog "result" f.parameter.2 =
        .ok ⟨"result", .isIn, .list ["a", "[ne]", ""]⟩) ∧
    build catalog "result" .isIn g.value = .ok g ∧
      ofParameter catalog "result" g.parameter.2 = .error (.invalidValue "result" .empty) ∧
      (recover catalog "result" g.parameter.2).1 = none := by
  intro catalog f g
  have hf : build catalog "result" .isIn f.value = .ok f := rfl
  have hg : build catalog "result" .isIn g.value = .ok g := rfl
  have hsplit : splitList (joinList ["a;[ne]", ""]) = ["a", "[ne]", ""] := by decide +kernel
  obtain ⟨-, hapart⟩ := parameter_read_exactly hf
  obtain ⟨-, hread, -⟩ := hapart ["a;[ne]", ""] rfl ⟨"a;[ne]", by simp, by decide⟩
  obtain ⟨hapartRead, -⟩ := hread ⟨'a', by decide +kernel, by decide⟩
  rw [hsplit] at hapartRead
  obtain ⟨-, hlost⟩ := parameter_read_exactly hg
  obtain ⟨-, -, hnothing⟩ := hlost ["", ";"] rfl ⟨";", by simp, by decide⟩
  exact ⟨⟨hf, hapartRead⟩, hg, hnothing (by simp [joinList, joinTexts, joined, listSeparator])⟩

end ViewFilters.Filter
