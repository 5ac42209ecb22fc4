import ViewFilters.Proofs.Filter.ReadBack

/-!
# ViewFilters.Proofs.Filter.WriteBack

What the strict reader of parameters takes is written as it was read, but for the
letter case of a truth value:

```
read             written
[ne]a]b          [ne]a]b
[in];failed;     [in];failed;
[exists]TRUE     [exists]true
```

Two values of one key therefore give one filter only if they are the same or are
truth values that differ in letter case only (`parameter_of_ofParameter`).
-/

namespace ViewFilters

/-! ## the text of a value -/

namespace Value

/-- A value that was read from a text has it as its text. -/
theorem render_parse (m : Mode) (raw : String) : (parse m raw).render = raw := by
  cases m with
  | single => rfl
  | multi => exact joinList_splitList raw
  | bool => rfl

theorem render_of_coerce_bool {v w : Value} (h : coerce .bool v = .ok w) :
    w.render = asciiLower v.render := by
  cases v with
  | text s =>
      simp only [coerce] at h
      split at h
      · next htrue =>
        rw [← Except.ok.inj h, render, render, htrue]
        rfl
      split at h
      · next hfalse =>
        rw [← Except.ok.inj h, render, render, hfalse]
        rfl
      · contradiction
  | list items => contradiction
  | flag b => rw [← Except.ok.inj h, render, asciiLower_flagText]

/-- Another shape leaves a value its text, except that a truth value is written in lower case. -/
theorem render_of_coerce {m : Mode} {v w : Value} (h : coerce m v = .ok w) :
    w.render = if m = .bool then asciiLower v.render else v.render := by
  cases m with
  | single =>
      rw [← Except.ok.inj h]
      rfl
  | multi =>
      rw [if_neg (by decide)]
      cases v with
      | text s =>
          rw [← Except.ok.inj h]
          exact joinList_splitList s
      | list items => rw [← Except.ok.inj h]
      | flag b =>
          rw [← Except.ok.inj h]
          cases b <;> rfl
  | bool => exact render_of_coerce_bool h

end Value

namespace Filter

variable {catalog : Catalog} {key raw : String} {f : Filter}

/-- How a filter that the strict reader gave is written. -/
theorem exists_text_of_ofParameter (h : ofParameter catalog key raw = .ok f) :
    ∃ text, raw = "[" ++ f.operator.name ++ "]" ++ text ∧
      f.parameter = (key, "[" ++ f.operator.name ++ "]" ++
        if f.operator.mode = .bool then asciiLower text else text) := by
  obtain ⟨op, text, rfl, hb⟩ := ofParameter_eq_ok_iff.1 h
  obtain ⟨-, -, -, w, hw, -, rfl⟩ := build_eq_ok_iff.1 hb
  refine ⟨text, rfl, ?_⟩
  rw [parameter, Value.render_of_coerce hw, Value.render_parse]

/-- A filter that the strict reader gave is known by its parameter. -/
theorem eq_of_parameter_eq {raw' : String} {g : Filter} (hf : ofParameter catalog key raw = .ok f)
    (hg : ofParameter catalog key raw' = .ok g) (h : f.parameter = g.parameter) : f = g := by
  have hread : ∀ {raw : String} {f : Filter}, ofParameter catalog key raw = .ok f →
      ofParameter catalog f.parameter.1 f.parameter.2 = .ok f := by
    intro raw f hf
    obtain ⟨op, text, -, hb⟩ := ofParameter_eq_ok_iff.1 hf
    exact ofParameter_parameter (valid_of_build hb)
      (separable_of_build (fun _ => Value.separable_parse op.mode text) hb)
  have hsame := hread hf
  rw [h, hread hg] at hsame
  exact (Except.ok.inj hsame).symm

/-! ## the whole -/

/-- **Write-back**: a filter that the strict reader gave has the key and the value that were
read as its parameter, except that a truth value is written in lower case.  Two values of one
key give one filter exactly when they are equal or truth values that differ in case only. -/
theorem parameter_of_ofParameter (h : ofParameter catalog key raw = .ok f) :
    (f.operator.mode ≠ .bool → f.parameter = (key, raw)) ∧
    (f.operator.mode = .bool → ∃ text, raw = "[" ++ f.operator.name ++ "]" ++ text ∧
      f.parameter = (key, "[" ++ f.operator.name ++ "]" ++ asciiLower text)) ∧
    ∀ raw' g, ofParameter catalog key raw' = .ok g →
      (f = g ↔ raw = raw' ∨ ∃ (op : Operator) (text text' : String), op.mode = .bool ∧
        raw = "[" ++ op.name ++ "]" ++ text ∧ raw' = "[" ++ op.name ++ "]" ++ text' ∧
        asciiLower text = asciiLower text') := by
  obtain ⟨text, hraw, hparameter⟩ := exists_text_of_ofParameter h
  refine ⟨fun hm => ?_, fun hm => ?_, fun raw' g hg => ?_⟩
  · rw [hparameter, if_neg hm, hraw]
  · rw [hparameter, if_pos hm]
    exact ⟨text, hraw, rfl⟩
  obtain ⟨text', hraw', hparameter'⟩ := exists_text_of_ofParameter hg
  constructor
  · rintro rfl
    rw [hparameter, Prod.mk.injEq] at hparameter'
    have hwritten := (operator_inj hparameter'.2).2
    by_cases hm : f.operator.mode = .bool
    · rw [if_pos hm, if_pos hm] at hwritten
      exact Or.inr ⟨f.operator, text, text', hm, hraw, hraw', hwritten⟩
    · rw [if_neg hm, if_neg hm] at hwritten
      exact Or.inl (by rw [hraw, hraw', hwritten])
  · rintro (rfl | ⟨op, t, t', hm, ht, ht', hcase⟩)
    · rw [h] at hg
      exact Except.ok.inj hg
    · obtain ⟨hop, rfl⟩ := operator_inj (hraw.symm.trans ht)
      obtain ⟨hop', rfl⟩ := operator_inj (hraw'.symm.trans ht')
      refine eq_of_parameter_eq h hg ?_
      rw [hparameter, hparameter', hop, hop', if_pos hm, if_pos hm, hcase]

/-- A list with empty elements and a text with a bracket are written as they were read; a
truth value in capitals is not, and gives the filter that the one in small letters gives. -/
theorem parameter_of_ofParameter_of_capitals :
    let read := ofParameter Catalog.builtin
    let list : Filter := ⟨"result", .isIn, .list ["", "failed", ""]⟩
    let text : Filter := ⟨"result", .ne, .text "a]b"⟩
    let flag : Filter := ⟨"metadata.flaky", .present, .flag true⟩
    (read "result" "[in];failed;" = .ok list ∧ list.parameter = ("result", "[in];failed;")) ∧
    (read "result" "[ne]a]b" = .ok text ∧ text.parameter = ("result", "[ne]a]b")) ∧
    read "metadata.flaky" "[exists]TRUE" = .ok flag ∧
      flag.parameter = ("metadata.flaky", "[exists]true") ∧
      ∀ g, read "metadata.flaky" "[exists]true" = .ok g → flag = g := by
  intro read list text flag
  have hlist : read "result" "[in];failed;" = .ok list :=
    ofParameter_operator Catalog.builtin "result" .isIn ";failed;"
  have htext : read "result" "[ne]a]b" = .ok text :=
    ofParameter_operator Catalog.builtin "result" .ne "a]b"
  have hflag : read "metadata.flaky" "[exists]TRUE" = .ok flag :=
    ofParameter_operator Catalog.builtin "metadata.flaky" .present "TRUE"
  obtain ⟨hlist', -⟩ := parameter_of_ofParameter hlist
  obtain ⟨htext', -⟩ := parameter_of_ofParameter htext
  obtain ⟨-, hwritten, hsame⟩ := parameter_of_ofParameter hflag
  have hlower : asciiLower "TRUE" = asciiLower "true" := by decide
  refine ⟨⟨hlist, hlist' (by decide)⟩, ⟨htext, htext' (by decide)⟩, hflag, ?_, fun g hg => ?_⟩
  · obtain ⟨t, ht, hparameter⟩ := hwritten rfl
    obtain ⟨-, rfl⟩ := @operator_inj .present .present "TRUE" t ht
    rw [hparameter]
    decide
  · exact (hsame "[exists]true" g hg).2 (Or.inr ⟨.present, "TRUE", "true", rfl, rfl, rfl, hlower⟩)

end Filter

end ViewFilters
