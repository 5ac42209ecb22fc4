import ViewFilters.Filter

/-!
# ViewFilters.Proofs.Filter.Valid

What can be said of every filter that `Filter.build` lets through:

1. its field is neither empty nor a key of the pagination;
2. the field's family takes the operator;
3. the value has the shape that the operator wants;
4. the value is not empty.

`Filter.Valid` holds the four together, and a valid filter is a fixed point of
`Filter.build` (`build_of_valid`).

A value whose list elements hold no `;` is *separable*: it can be read back from
its text (`coerce_parse_render`).  Values that were read from text always are.
-/

namespace ViewFilters

/-! ## the shape of a value -/

namespace Value

/-- The mode that wants values of this shape. -/
def shape : Value → Mode
  | text _ => .single
  | list _ => .multi
  | flag _ => .bool

/-- No element of a list holds the separator. -/
def Separable : Value → Prop
  | list items => ∀ s ∈ items, listSeparator ∉ s.toList
  | _ => True

/-- Coercion gives the shape that was wanted. -/
theorem shape_of_coerce {m : Mode} {v w : Value} (h : coerce m v = .ok w) : w.shape = m := by
  cases m with
  | single =>
      rw [coerce, Except.ok.injEq] at h
      rw [← h, shape]
  | multi => cases v <;> simp only [coerce, Except.ok.injEq] at h <;> rw [← h, shape]
  | bool =>
      cases v with
      | text s =>
          simp only [coerce] at h
          split at h
          · rw [← Except.ok.inj h, shape]
          split at h
          · rw [← Except.ok.inj h, shape]
          · contradiction
      | list items => contradiction
      | flag b => rw [← Except.ok.inj h, shape]

/-- A value of the wanted shape is left as it is. -/
theorem coerce_of_shape {m : Mode} {v : Value} (h : v.shape = m) : coerce m v = .ok v := by
  subst h
  cases v <;> rfl

/-! ## lists and their text -/

theorem splitList_ne_nil (raw : String) : splitList raw ≠ [] := by
  simp [splitList, splitText, pieces_ne_nil]

/-- The pieces of a text hold no separator. -/
theorem separator_notMem_of_mem_splitList {raw s : String} (h : s ∈ splitList raw) :
    listSeparator ∉ s.toList := by
  obtain ⟨p, hp, rfl⟩ := List.mem_map.1 h
  rw [String.toList_ofList]
  exact notMem_of_mem_pieces hp

/-- A list comes back from its text when it has an element and no element holds
the separator. -/
theorem splitList_joinList {items : List String} (hne : items ≠ [])
    (h : ∀ s ∈ items, listSeparator ∉ s.toList) : splitList (joinList items) = items := by
  have hsep : ∀ p ∈ items.map String.toList, listSeparator ∉ p := by
    intro p hp
    obtain ⟨s, hs, rfl⟩ := List.mem_map.1 hp
    exact h s hs
  rw [splitList, joinList, splitText, joinTexts, String.toList_ofList,
    pieces_joined (by simpa using hne) hsep]
  simp [Function.comp_def]

/-- A text comes back from the list of its pieces. -/
theorem joinList_splitList (raw : String) : joinList (splitList raw) = raw := by
  rw [joinList, splitList, joinTexts, splitText, List.map_map]
  simp [Function.comp_def, joined_pieces]

/-! ## separable values -/

theorem separable_parse (m : Mode) (raw : String) : (parse m raw).Separable := by
  cases m with
  | single => trivial
  | multi => exact fun s hs => separator_notMem_of_mem_splitList hs
  | bool => trivial

/-- Only a list can fail to be separable. -/
theorem separable_of_shape_ne {v : Value} (h : v.shape ≠ .multi) : v.Separable := by
  cases v with
  | text s => trivial
  | list items => contradiction
  | flag b => trivial

/-- Coercion makes no list that is not separable; it only passes one on. -/
theorem separable_of_coerce {m : Mode} {v w : Value} (hv : m = .multi → v.Separable)
    (h : coerce m v = .ok w) : w.Separable := by
  have hw := shape_of_coerce h
  cases m with
  | single => exact separable_of_shape_ne (by simp [hw])
  | bool => exact separable_of_shape_ne (by simp [hw])
  | multi =>
      cases v with
      | text s =>
          rw [← Except.ok.inj h]
          exact fun t ht => separator_notMem_of_mem_splitList ht
      | list items =>
          rw [← Except.ok.inj h]
          exact hv rfl
      | flag b =>
          rw [← Except.ok.inj h]
          cases b <;> simp [Separable, flagText, listSeparator]

theorem asciiLower_flagText (b : Bool) : asciiLower (flagText b) = flagText b := by
  cases b <;> decide

/-- A separable value comes back from its text. -/
theorem coerce_parse_render {v : Value} (hs : v.Separable) (he : v.isEmpty = false) :
    coerce v.shape (parse v.shape v.render) = .ok v := by
  cases v with
  | text s => rfl
  | list items =>
      have hne : items ≠ [] := by rintro rfl; simp [isEmpty] at he
      simp only [shape, parse, render, coerce, splitList_joinList hne hs]
  | flag b =>
      simp only [shape, parse, render, coerce, asciiLower_flagText]
      cases b <;> simp [flagText]

end Value

/-! ## valid filters -/

namespace Filter

/-- What holds of every filter that can be built with a catalog. -/
structure Valid (catalog : Catalog) (f : Filter) : Prop where
  field_ne : f.field ≠ ""
  unreserved : isReserved f.field = false
  legal : catalog.isLegal f.field f.operator = true
  shape : f.value.shape = f.operator.mode
  nonempty : f.value.isEmpty = false

/-- When building succeeds, and with what. -/
theorem build_eq_ok_iff {catalog : Catalog} {field : String} {op : Operator} {v : Value}
    {f : Filter} :
    build catalog field op v = .ok f ↔
      field ≠ "" ∧ isReserved field = false ∧ catalog.isLegal field op = true ∧
        ∃ w, v.coerce op.mode = .ok w ∧ w.isEmpty = false ∧ ⟨field, op, w⟩ = f := by
  unfold build
  by_cases h1 : field = ""
  · simp [h1]
  by_cases h2 : isReserved field = true
  · simp [h1, h2]
  by_cases h3 : catalog.isLegal field op = true
  · cases v.coerce op.mode with
    | error fault => simp [h1, h2, h3]
    | ok w => by_cases h4 : w.isEmpty = true <;> simp [h1, h2, h3, h4]
  · simp [h1, h2, h3]

/-- What is built has the field and the operator that were asked for. -/
theorem field_of_build {catalog : Catalog} {field : String} {op : Operator} {v : Value}
    {f : Filter} (h : build catalog field op v = .ok f) : f.field = field := by
  obtain ⟨-, -, -, w, -, -, rfl⟩ := build_eq_ok_iff.1 h
  rfl

theorem valid_of_build {catalog : Catalog} {field : String} {op : Operator} {v : Value}
    {f : Filter} (h : build catalog field op v = .ok f) : f.Valid catalog := by
  obtain ⟨hne, hres, hleg, w, hw, he, rfl⟩ := build_eq_ok_iff.1 h
  exact ⟨hne, hres, hleg, Value.shape_of_coerce hw, he⟩

theorem separable_of_build {catalog : Catalog} {field : String} {op : Operator} {v : Value}
    {f : Filter} (hv : op.mode = .multi → v.Separable) (h : build catalog field op v = .ok f) :
    f.value.Separable := by
  obtain ⟨-, -, -, w, hw, -, rfl⟩ := build_eq_ok_iff.1 h
  exact Value.separable_of_coerce hv hw

/-- Building a valid filter from any value that is coerced to its own. -/
theorem build_of_coerce {catalog : Catalog} {f : Filter} (h : f.Valid catalog) {v : Value}
    (hv : v.coerce f.operator.mode = .ok f.value) :
    build catalog f.field f.operator v = .ok f :=
  build_eq_ok_iff.2 ⟨h.field_ne, h.unreserved, h.legal, f.value, hv, h.nonempty, rfl⟩

/-- A valid filter is built from its own parts. -/
theorem build_of_valid {catalog : Catalog} {f : Filter} (h : f.Valid catalog) :
    build catalog f.field f.operator f.value = .ok f :=
  build_of_coerce h (Value.coerce_of_shape h.shape)

end Filter

end ViewFilters
