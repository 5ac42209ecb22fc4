import ViewFilters.Proofs.Filter.WriteBack

/-!
# ViewFilters.Proofs.Filter.Normal

A filter holds its value in the one shape that its operator wants, whatever shape was given:

```
given       single     multi       bool
"a;b"       "a;b"      [a, b]      refused
"TRUE"      "TRUE"     [TRUE]      true
[a, b]      "a;b"      [a, b]      refused
true        "true"     [true]      true
```

1. A value in that shape stays as it is, so building a filter from the parts of one gives
   this very filter.
2. The text of the value is the text that was given, but for the capitals of a truth value.
3. Under an operator that takes one text, nothing but the text that was given counts.  Under
   the others it tells the filter too, where one is built and no list element holds a `;`.

The statement on filters is `build_normalizes`.
-/

namespace ViewFilters

namespace Value

/-- A value is known by its shape and its text, unless a list element holds the separator. -/
theorem eq_of_render_eq {v w : Value} (hv : v.Separable) (hw : w.Separable)
    (hve : v.isEmpty = false) (hwe : w.isEmpty = false) (hshape : v.shape = w.shape)
    (htext : v.render = w.render) : v = w := by
  have hread := coerce_parse_render hv hve
  rw [hshape, htext, coerce_parse_render hw hwe, Except.ok.injEq] at hread
  exact hread.symm

end Value

namespace Filter

variable {catalog : Catalog} {field : String} {op : Operator} {v : Value} {f g : Filter}

/-! ## the text of what is built -/

theorem operator_of_build (h : build catalog field op v = .ok f) : f.operator = op := by
  obtain ⟨-, -, -, w, -, -, rfl⟩ := build_eq_ok_iff.1 h
  rfl

theorem render_of_build (h : build catalog field op v = .ok f) :
    f.value.render = if op.mode = .bool then asciiLower v.render else v.render := by
  obtain ⟨-, -, -, w, hw, -, rfl⟩ := build_eq_ok_iff.1 h
  exact Value.render_of_coerce hw

/-- A filter is known by its field, its operator and its text, unless a list element holds the
separator. -/
theorem Valid.eq_of_render_eq {other : Catalog} (hf : f.Valid catalog) (hg : g.Valid other)
    (hfs : f.value.Separable) (hgs : g.value.Separable) (hfield : f.field = g.field)
    (hop : f.operator = g.operator) (htext : f.value.render = g.value.render) : f = g := by
  have hshape : f.value.shape = g.value.shape := by rw [hf.shape, hg.shape, hop]
  have hvalue := Value.eq_of_render_eq hfs hgs hf.nonempty hg.nonempty hshape htext
  cases f
  cases g
  simp_all

/-- Under an operator that takes one text, only the text of the value counts. -/
theorem build_eq_of_render_eq {w : Value} (hm : op.mode = .single) (h : v.render = w.render) :
    build catalog field op v = build catalog field op w := by
  simp [build, hm, Value.coerce, h]

/-! ## the whole -/

/-- **Normal form**: building from the parts of a filter gives this filter.  The text of its value,
in links and in tokens too, is the one of the value that it was built from, in lower case for a
truth value.  Under an operator that takes one text, values with one text are all the same; under
every operator they give one filter, if they give any and no list element holds the separator. -/
theorem build_normalizes (catalog : Catalog) (field : String) (op : Operator) :
    (∀ v f, build catalog field op v = .ok f →
      build catalog f.field f.operator f.value = .ok f ∧
        let text := if op.mode = .bool then asciiLower v.render else v.render
        f.value.render = text ∧ f.parameter = (field, "[" ++ op.name ++ "]" ++ text) ∧
          f.token = field ++ String.singleton op.mark ++ text) ∧
    (op.mode = .single → ∀ v w, v.render = w.render →
      build catalog field op v = build catalog field op w) ∧
    ∀ v w f g, build catalog field op v = .ok f → build catalog field op w = .ok g →
      v.Separable → w.Separable → v.render = w.render → f = g := by
  refine ⟨fun v f h => ?_, fun hm v w => build_eq_of_render_eq hm,
    fun v w f g hf hg hv hw htext => ?_⟩
  · have htext := render_of_build h
    refine ⟨build_of_valid (valid_of_build h), htext, ?_, ?_⟩
    · rw [parameter, htext, field_of_build h, operator_of_build h]
    · rw [token, htext, field_of_build h, operator_of_build h]
  · have hfield : f.field = g.field := (field_of_build hf).trans (field_of_build hg).symm
    have hop : f.operator = g.operator := (operator_of_build hf).trans (operator_of_build hg).symm
    have hsame : f.value.render = g.value.render := by
      rw [render_of_build hf, render_of_build hg, htext]
    have hfs := separable_of_build (fun _ => hv) hf
    have hgs := separable_of_build (fun _ => hw) hg
    exact (valid_of_build hf).eq_of_render_eq (valid_of_build hg) hfs hgs hfield hop hsame

/-- A truth value in capitals; a list for one text, and its text; a text for a list, and its
pieces. -/
theorem build_normalizes_of_shapes :
    let build := build Catalog.builtin
    let flag : Filter := ⟨"metadata.flaky", .present, .flag true⟩
    let list : Filter := ⟨"result", .isIn, .list ["", "failed", ""]⟩
    (build "metadata.flaky" .present (.text "TRUE") = .ok flag ∧
      build "metadata.flaky" .present (.flag true) = .ok flag ∧
      flag.token = "metadata.flaky@" ++ asciiLower "TRUE") ∧
    build "component" .eq (.list ["a", "b"]) = build "component" .eq (.text "a;b") ∧
    build "result" .isIn (.text ";failed;") = .ok list ∧ list.value.render = ";failed;" ∧
      ∀ g, build "result" .isIn (.list ["", "failed", ""]) = .ok g → list = g := by
  intro build flag list
  have hflag : build "metadata.flaky" .present (.text "TRUE") = .ok flag := rfl
  have hlist : build "result" .isIn (.text ";failed;") = .ok list := rfl
  have hitems : (Value.list ["", "failed", ""]).Separable := by
    simp [Value.Separable, listSeparator]
  obtain ⟨hpresent, -⟩ := build_normalizes Catalog.builtin "metadata.flaky" .present
  obtain ⟨hagain, -, -, htoken⟩ := hpresent _ _ hflag
  obtain ⟨-, heq, -⟩ := build_normalizes Catalog.builtin "component" .eq
  obtain ⟨hin, -, hsame⟩ := build_normalizes Catalog.builtin "result" .isIn
  exact ⟨⟨hflag, hagain, htoken⟩, heq rfl _ _ rfl, hlist, (hin _ _ hlist).2.1,
    fun g hg => hsame _ _ _ _ hlist hg trivial hitems rfl⟩

end Filter

end ViewFilters
