import ViewFilters.Proofs.Filter.Valid

/-!
# ViewFilters.Proofs.Value.Lists

Lists and their texts.  A text is cut into the only list that has this text, at least
one element, and no `;` in its elements (`splitList_eq_iff`).  Any other list comes back
from its text as another one:

```
list              text       list again
["a", "", "b"]    "a;;b"     ["a", "", "b"]
[""]              ""         [""]
[]                ""         [""]
["a;b", ";"]      "a;b;;"    ["a", "b", "", ""]
```

The statement on both ways is `splitList_joinList_inverse`.  Which texts read as an empty
value:

```
mode     empty texts
single   ""
bool     ""
multi    "", ";", ";;", …
```

An empty value that was read from a text stays empty when it is given the shape
that the mode wants, so no filter is built from it (`exists_error_of_isEmpty_parse`).

A list of empty texts is an empty value too, but from two texts on the text that it
has as a whole is not empty (`joinList_of_isEmpty`).
-/

namespace ViewFilters

/-! ## empty pieces -/

/-- All pieces of a list are empty when it holds nothing but separators. -/
theorem forall_mem_pieces_eq_nil_iff {α : Type} [DecidableEq α] {sep : α} {xs : List α} :
    (∀ p ∈ pieces sep xs, p = []) ↔ ∀ x ∈ xs, x = sep := by
  induction xs with
  | nil => simp
  | cons x xs ih =>
      by_cases hx : x = sep
      · simp [pieces, hx, ih]
      · cases hp : pieces sep xs with
        | nil => exact absurd hp (pieces_ne_nil sep xs)
        | cons p ps => simp [pieces, hx, hp]

/-- Of empty pieces only the separators between them are left. -/
theorem joined_of_forall_eq_nil {β : Type} (sep : β) {ps : List (List β)} (h : ∀ p ∈ ps, p = []) :
    joined sep ps = List.replicate (ps.length - 1) sep := by
  induction ps with
  | nil => rfl
  | cons p ps ih =>
      have hp : p = [] := h p List.mem_cons_self
      cases ps with
      | nil => rw [joined_singleton, hp]; rfl
      | cons q qs =>
          rw [joined_cons (by simp), ih fun r hr => h r (List.mem_cons_of_mem p hr), hp]
          simp [List.replicate_succ]

/-- The text of a list of empty texts. -/
theorem joinList_of_isEmpty {items : List String} (h : (Value.list items).isEmpty = true) :
    joinList items = String.ofList (List.replicate (items.length - 1) listSeparator) := by
  have hnil : ∀ p ∈ items.map String.toList, p = [] := by
    simpa [Value.isEmpty] using h
  rw [joinList, joinTexts, joined_of_forall_eq_nil listSeparator hnil, List.length_map]

namespace Value

/-! ## there and back -/

/-- A text is cut into the only list that has this text, at least one element, and no
separator in its elements. -/
theorem splitList_eq_iff {raw : String} {items : List String} :
    splitList raw = items ↔
      joinList items = raw ∧ items ≠ [] ∧ ∀ s ∈ items, listSeparator ∉ s.toList := by
  constructor
  · rintro rfl
    exact ⟨joinList_splitList raw, splitList_ne_nil raw,
      fun _ hs => separator_notMem_of_mem_splitList hs⟩
  · rintro ⟨rfl, hne, hsep⟩
    exact splitList_joinList hne hsep

/-- Cutting the text of a list cuts each element by itself. -/
theorem splitList_joinList_eq_flatMap {items : List String} (hne : items ≠ []) :
    splitList (joinList items) = items.flatMap splitList := by
  have hpieces : items.map String.toList ≠ [] := by simpa using hne
  calc
    splitList (joinList items)
        = (pieces listSeparator (joined listSeparator (items.map String.toList))).map
            String.ofList := by
          rw [splitList, splitText, joinList, joinTexts, String.toList_ofList]
    _ = ((items.map String.toList).flatMap (pieces listSeparator)).map String.ofList := by
          rw [pieces_joined_eq_flatMap hpieces]
    _ = items.flatMap splitList := by
          rw [List.flatMap_map, List.map_flatMap]
          rfl

/-! ## texts of empty values -/

/-- A list that is read from a text is empty when the text holds nothing but separators. -/
theorem isEmpty_list_splitList_iff {raw : String} :
    (list (splitList raw)).isEmpty = true ↔ ∀ c ∈ raw.toList, c = listSeparator := by
  rw [← forall_mem_pieces_eq_nil_iff]
  simp [isEmpty, splitList, splitText]

theorem isEmpty_parse_iff {m : Mode} {raw : String} :
    (parse m raw).isEmpty = true ↔
      raw = "" ∨ m = .multi ∧ ∀ c ∈ raw.toList, c = listSeparator := by
  cases m with
  | single => simp [parse, isEmpty]
  | bool => simp [parse, isEmpty]
  | multi =>
      rw [parse, isEmpty_list_splitList_iff]
      constructor
      · exact fun h => Or.inr ⟨rfl, h⟩
      · rintro (rfl | ⟨-, h⟩)
        · simp
        · exact h

/-- An empty value has a text of its own only as a list of two texts or more. -/
theorem render_eq_empty_iff {v : Value} (h : v.isEmpty = true) :
    v.render = "" ↔ ¬ ∃ items, v = .list items ∧ 2 ≤ items.length := by
  cases v with
  | text s => simpa [isEmpty, render] using h
  | list items =>
      have hlength : 2 ≤ items.length ↔ items.length - 1 ≠ 0 := by omega
      simp [render, joinList_of_isEmpty h, hlength]
  | flag b => simp [isEmpty] at h

/-! ## empty values in another shape -/

/-- A list or a truth value is not made of an empty value that is not empty itself. -/
theorem isEmpty_of_coerce {m : Mode} {v w : Value} (hm : m ≠ .single) (he : v.isEmpty = true)
    (hw : coerce m v = .ok w) : w.isEmpty = true := by
  cases v with
  | text s =>
      have hs : s = "" := by simpa [isEmpty] using he
      subst hs
      cases m with
      | single => contradiction
      | multi => rw [← Except.ok.inj hw]; rfl
      | bool => simp [coerce, asciiLower] at hw
  | list items =>
      cases m with
      | single => contradiction
      | multi => rwa [← Except.ok.inj hw]
      | bool => contradiction
  | flag b => simp [isEmpty] at he

/-- An empty value that was read from a text is still empty in the wanted shape. -/
theorem isEmpty_of_coerce_parse {m : Mode} {raw : String} {w : Value}
    (he : (parse m raw).isEmpty = true) (hw : coerce m (parse m raw) = .ok w) :
    w.isEmpty = true := by
  by_cases hm : m = .single
  · subst hm
    rw [parse, coerce, Except.ok.injEq] at hw
    rwa [← hw]
  · exact isEmpty_of_coerce hm he hw

end Value

namespace Filter

/-- No filter is built from a text that reads as an empty value. -/
theorem exists_error_of_isEmpty_parse (catalog : Catalog) (field : String) {op : Operator}
    {text : String} (he : (Value.parse op.mode text).isEmpty = true) :
    ∃ e, build catalog field op (Value.parse op.mode text) = .error e := by
  cases hb : build catalog field op (Value.parse op.mode text) with
  | error e => exact ⟨e, rfl⟩
  | ok f =>
      obtain ⟨-, -, -, w, hw, hne, -⟩ := build_eq_ok_iff.1 hb
      rw [Value.isEmpty_of_coerce_parse he hw] at hne
      contradiction

end Filter

/-! ## the whole -/

/-- **Texts and lists**: a text comes back from the list that it is cut into.  This list has
an element, and all of them are empty exactly when the text holds nothing but separators.  A
list comes back from its text exactly when it has an element and none holds the separator.  Any
other list comes back with each element cut by itself, the one without elements as one empty
text. -/
theorem splitList_joinList_inverse :
    (∀ raw, joinList (splitList raw) = raw ∧ splitList raw ≠ [] ∧
      ((Value.list (splitList raw)).isEmpty = true ↔ ∀ c ∈ raw.toList, c = ';')) ∧
    ∀ items,
      (splitList (joinList items) = items ↔ items ≠ [] ∧ ∀ s ∈ items, ';' ∉ s.toList) ∧
      splitList (joinList items) = if items = [] then [""] else items.flatMap splitList := by
  constructor
  · intro raw
    exact ⟨Value.joinList_splitList raw, Value.splitList_ne_nil raw,
      Value.isEmpty_list_splitList_iff⟩
  · intro items
    constructor
    · rw [Value.splitList_eq_iff, eq_self, true_and, listSeparator]
    · split
      · next hnil =>
          subst hnil
          rfl
      · next hne => exact Value.splitList_joinList_eq_flatMap hne

end ViewFilters
