import ViewFilters.Proofs.Value.Lists

/-!
# ViewFilters.Proofs.Filter.Empty

What comes of an empty value, when the field and the operator are fine.  The value
is tested after it was given the shape that the operator wants, so it counts what it
has become:

```
mode     given             tested     outcome
multi    "", [], ["", ""]  [""], …    refused
bool     "", [], ["", ""]             refused
single   "", [], [""]      ""         refused
single   ["", ""]          ";"        a filter on ";"
```

An empty value is therefore refused in all cases but one: a list of two texts or more
under an operator that takes one text (`build_of_isEmpty`).
-/

namespace ViewFilters.Filter

variable {catalog : Catalog} {field : String} {op : Operator} {v : Value}

/-- What is built on a field that can be filtered on, with an operator that it takes. -/
theorem build_of_isLegal (hne : field ≠ "") (hres : isReserved field = false)
    (hlegal : catalog.isLegal field op = true) :
    build catalog field op v =
      match v.coerce op.mode with
      | .error fault => .error (.invalidValue field fault)
      | .ok w => if w.isEmpty then .error (.invalidValue field .empty) else .ok ⟨field, op, w⟩ := by
  cases hw : v.coerce op.mode <;> simp [build, hne, hres, hlegal, hw]

/-- What becomes of an empty value under an operator that wants another shape. -/
theorem build_of_isEmpty_of_mode_ne (hne : field ≠ "") (hres : isReserved field = false)
    (hlegal : catalog.isLegal field op = true) (he : v.isEmpty = true) (hm : op.mode ≠ .single) :
    ∃ fault, build catalog field op v = .error (.invalidValue field fault) := by
  rw [build_of_isLegal hne hres hlegal]
  cases hw : v.coerce op.mode with
  | error fault => exact ⟨fault, rfl⟩
  | ok w =>
      have hempty : w.isEmpty = true := Value.isEmpty_of_coerce hm he hw
      exact ⟨.empty, by simp [hempty]⟩

/-- Under an operator that takes one text, the text of an empty value is what counts. -/
theorem build_of_mode_single (hne : field ≠ "") (hres : isReserved field = false)
    (hlegal : catalog.isLegal field op = true) (hm : op.mode = .single) :
    build catalog field op v =
      if v.render = "" then .error (.invalidValue field .empty)
      else .ok ⟨field, op, .text v.render⟩ := by
  rw [build_of_isLegal hne hres hlegal, hm]
  simp [Value.coerce, Value.isEmpty]

/-- **Empty values**: on a field that can be filtered on, with an operator that it takes, an
empty value is refused exactly when it is not a list of two texts or more under an operator
that takes one text.  From such a list a filter on the separators between its texts is built. -/
theorem build_of_isEmpty (catalog : Catalog) {field : String} {op : Operator} {v : Value}
    (hne : field ≠ "") (hres : isReserved field = false)
    (hlegal : catalog.isLegal field op = true) (he : v.isEmpty = true) :
    ((∃ fault, build catalog field op v = .error (.invalidValue field fault)) ↔
      ¬ (op.mode = .single ∧ ∃ items, v = .list items ∧ 2 ≤ items.length)) ∧
    ∀ items, op.mode = .single → v = .list items → 2 ≤ items.length →
      build catalog field op v =
        .ok ⟨field, op, .text (String.ofList (List.replicate (items.length - 1) ';'))⟩ := by
  by_cases hm : op.mode = .single
  · have hbuild := @build_of_mode_single catalog field op v hne hres hlegal hm
    have hrender := Value.render_eq_empty_iff he
    constructor
    · by_cases hr : v.render = ""
      · simp [hbuild, hr, hm, hrender.1 hr]
      · have hlong : ∃ items, v = .list items ∧ 2 ≤ items.length :=
          Classical.not_not.1 fun h => hr (hrender.2 h)
        simp only [hbuild, if_neg hr, hm, hlong, and_self, not_true_eq_false, iff_false]
        rintro ⟨fault, h⟩
        contradiction
    · rintro items - rfl hlong
      have hr : (Value.list items).render ≠ "" := fun h => hrender.1 h ⟨items, rfl, hlong⟩
      rw [hbuild, if_neg hr, Value.render, joinList_of_isEmpty he]
      rfl
  · exact ⟨by simp [hm, build_of_isEmpty_of_mode_ne hne hres hlegal he hm],
      fun _ hsingle => absurd hsingle hm⟩

/-- Two empty texts, for an operator that takes one text. -/
theorem build_of_isEmpty_of_two :
    "component" ≠ "" ∧ isReserved "component" = false ∧
      Catalog.builtin.isLegal "component" .eq = true ∧ (Value.list ["", ""]).isEmpty = true ∧
      build Catalog.builtin "component" .eq (.list ["", ""]) =
        .ok ⟨"component", .eq, .text ";"⟩ := by
  have hne : "component" ≠ "" := by decide
  have hres : isReserved "component" = false := by decide
  have hlegal : Catalog.builtin.isLegal "component" .eq = true := by decide
  have he : (Value.list ["", ""]).isEmpty = true := by decide
  obtain ⟨-, hbuild⟩ := build_of_isEmpty Catalog.builtin hne hres hlegal he
  exact ⟨hne, hres, hlegal, he, hbuild ["", ""] rfl rfl (by decide)⟩

/-- Not every empty value is refused: from two empty texts a filter is built. -/
theorem not_all_empty_values_refused :
    ¬ ∀ (catalog : Catalog) (field : String) (op : Operator) (v : Value),
      field ≠ "" → isReserved field = false → catalog.isLegal field op = true →
        v.isEmpty = true → ∃ fault, build catalog field op v = .error (.invalidValue field fault) := by
  intro h
  obtain ⟨fault, hfault⟩ := h Catalog.builtin "component" .eq (.list ["", ""])
    (by decide) (by decide) (by decide) (by decide)
  have hbuilt : build Catalog.builtin "component" .eq (.list ["", ""]) =
      .ok ⟨"component", .eq, .text ";"⟩ := rfl
  rw [hbuilt] at hfault
  contradiction

end ViewFilters.Filter
