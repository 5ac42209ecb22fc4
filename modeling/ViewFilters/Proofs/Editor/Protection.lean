import ViewFilters.Proofs.Editor.Outcome

/-!
# ViewFilters.Proofs.Editor.Protection

What an operation of an editor makes of a filter on a protected field.

1. On a *pinned* field the filter stays for good.  Only another one on the same
   field, one that was asked for and could be built, takes its place.
2. On a field that is protected without being pinned it stays too, until
   everything is cleared.
3. Asking for it to be gone in any other way changes neither the criteria nor the
   history.

The five kinds of `Change` are gone through once (`Change.on?_cases`); all else
follows from that.  `Spares` puts the three together.
-/

namespace ViewFilters.Editor

/-! ## what an operation asks for -/

/-- The operation asks for a filter to be in force, and the filter can be built. -/
def AsksToPut (ctx : Context) (e : Editor) (a : Action) (f : Filter) : Prop :=
  ∃ op v, e.asUpdate? a = some (f.field, op, some v) ∧ v.isEmpty = false ∧
    Filter.build ctx.catalog f.field op v = .ok f

variable {ctx : Context} {e : Editor} {a : Action} {c : Criteria} {field other : String}

/-- An operation asks for one field at most to be without a filter. -/
theorem AsksToRemove.unique (h : e.AsksToRemove a field) (h' : e.AsksToRemove a other) :
    field = other := by
  obtain rfl | ⟨op, value, ha, -⟩ := h
  · obtain heq | ⟨op', value', ha', -⟩ := h'
    · exact Action.remove.inj heq
    · contradiction
  · obtain rfl | ⟨op', value', ha', -⟩ := h'
    · contradiction
    · rw [ha, Option.some.injEq, Prod.mk.injEq] at ha'
      exact ha'.1

theorem AsksToRemove.not_put (h : e.AsksToRemove a field) {op : Operator} {v : Value}
    (ha : e.asUpdate? a = some (other, op, some v)) : v.isEmpty = true := by
  obtain rfl | ⟨op', value, ha', hempty⟩ := h
  · contradiction
  · rw [ha, Option.some.injEq, Prod.mk.injEq, Prod.mk.injEq] at ha'
    exact hempty v ha'.2.2.symm

/-- Asking for a protected field to be without a filter leads to no change. -/
theorem AsksToRemove.not_change (h : e.AsksToRemove a field)
    (hp : ctx.policy.isProtected field = true) : ¬ Change ctx e a c := by
  intro hc
  cases hc with
  | put ha hv hb =>
      rw [h.not_put ha] at hv
      contradiction
  | without ha hp' hf =>
      rw [h.unique ha, hp'] at hp
      contradiction
  | clear ha | page ha | pageSize ha =>
      subst ha
      obtain heq | ⟨op, value, hu, -⟩ := h <;> contradiction

/-! ## one operation -/

/-- A change leaves the filter on a protected field, puts another one in its place,
or is the clearing of everything and the field is not pinned. -/
theorem Change.on?_cases (hc : Change ctx e a c) (hp : ctx.policy.isProtected field = true) :
    c.on? field = e.criteria.on? field ∨
      (∃ f, e.AsksToPut ctx a f ∧ f.field = field ∧ c.on? field = some f) ∨
      (a = .clearAll ∧ ctx.policy.isPinned field = false) := by
  cases hc with
  | @put field' op v f ha hv hb =>
      have hf : f.field = field' := Filter.field_of_build hb
      subst hf
      by_cases h : field = f.field
      · subst h
        exact Or.inr (Or.inl ⟨f, ⟨op, v, ha, hv, hb⟩, rfl, Selection.on?_put_self _ f⟩)
      · exact Or.inl (Selection.on?_put_of_ne h)
  | @without field' ha hp' hf =>
      have h : field ≠ field' := by
        rintro rfl
        rw [hp] at hp'
        contradiction
      exact Or.inl (Selection.on?_without_of_ne h)
  | clear ha =>
      cases hpin : ctx.policy.isPinned field with
      | true => exact Or.inl (Criteria.on?_pinnedOnly hpin)
      | false => exact Or.inr (Or.inr ⟨ha, rfl⟩)
  | page ha hn => exact Or.inl rfl
  | pageSize ha hn => exact Or.inl rfl

/-- A change leaves a filter where there is one on a pinned field. -/
theorem Change.on?_ne_none (hc : Change ctx e a c) (hp : ctx.policy.isPinned field = true)
    (h : e.criteria.on? field ≠ none) : c.on? field ≠ none := by
  obtain hsame | ⟨f, -, -, hon⟩ | ⟨-, hunpinned⟩ :=
    hc.on?_cases (Policy.isProtected_of_isPinned hp)
  · rwa [hsame]
  · simp [hon]
  · simp [hp] at hunpinned

theorem on?_perform_cases (e : Editor) (a : Action) (hp : ctx.policy.isProtected field = true) :
    (e.perform ctx a).state.criteria.on? field = e.criteria.on? field ∨
      (∃ f, e.AsksToPut ctx a f ∧ (e.perform ctx a).result = .ok true ∧ f.field = field ∧
        (e.perform ctx a).state.criteria.on? field = some f) ∨
      (a = .clearAll ∧ ctx.policy.isPinned field = false) := by
  have ho := perform_outcome ctx e a
  generalize e.perform ctx a = step at ho ⊢
  cases ho with
  | failed ha hv hb => exact Or.inl rfl
  | kept h => exact Or.inl rfl
  | @settled c draft events answer hc h =>
      rw [criteria_commit]
      cases answer with
      | false =>
          rw [h rfl]
          exact Or.inl rfl
      | true =>
          refine (hc.on?_cases hp).imp_right (Or.imp_left ?_)
          rintro ⟨f, hasks, hfield, hon⟩
          exact ⟨f, hasks, rfl, hfield, hon⟩

theorem perform_of_asksToRemove (h : e.AsksToRemove a field)
    (hp : ctx.policy.isProtected field = true) :
    (e.perform ctx a).state.criteria = e.criteria ∧
      (e.perform ctx a).state.history = e.history := by
  have ho := perform_outcome ctx e a
  generalize e.perform ctx a = step at ho ⊢
  cases ho with
  | failed ha hv hb => exact ⟨rfl, rfl⟩
  | kept hd => exact ⟨rfl, rfl⟩
  | settled hc hs => exact absurd hc (h.not_change hp)

theorem criteria_perform_clearAll (ctx : Context) (e : Editor) :
    (e.perform ctx .clearAll).state.criteria = (e.criteria.pinnedOnly ctx.policy).withPage 1 := by
  simp only [perform, clearAll, settle, Step.state_map, criteria_commit]

/-! ## runs -/

/-- On a pinned field there is a filter at every time after the first. -/
theorem on?_run_ne_none (hp : ctx.policy.isPinned field = true)
    (h : e.criteria.on? field ≠ none) (as : List Action) :
    (e.run ctx as).criteria.on? field ≠ none :=
  criteria_run_of_change (P := fun c => c.on? field ≠ none) h
    (fun _ _ _ hc hon => hc.on?_ne_none hp hon) as

/-! ## sparing a filter -/

/-- What may become of the filter on a protected field from one editor to the next,
with the operation in between, if it was one of the editor. -/
structure Spares (ctx : Context) (field : String) (e : Editor) (asked : Option Action)
    (e' : Editor) : Prop where
  replaced : ctx.policy.isPinned field = true → ∀ f, e.criteria.on? field = some f →
    e'.criteria.on? field ≠ some f →
      ∃ a g, asked = some a ∧ e.AsksToPut ctx a g ∧ (e.perform ctx a).result = .ok true ∧
        g.field = field ∧ e'.criteria.on? field = some g
  lost : ctx.policy.isPinned field = false → e.criteria.on? field ≠ none →
    (e'.criteria.on? field = none ↔ asked = some .clearAll)
  refused : ∀ a ∈ asked, e.AsksToRemove a field →
    e'.criteria = e.criteria ∧ e'.history = e.history

theorem spares_perform {ctx : Context} {field : String} (e : Editor) (a : Action)
    (hp : ctx.policy.isProtected field = true) :
    Spares ctx field e (some a) (e.perform ctx a).state := by
  constructor
  · intro hpinned f hf hne
    obtain hsame | ⟨g, hasks, hresult, hfield, hon⟩ | ⟨-, hunpinned⟩ := e.on?_perform_cases a hp
    · rw [hsame] at hne
      exact absurd hf hne
    · exact ⟨a, g, rfl, hasks, hresult, hfield, hon⟩
    · simp [hpinned] at hunpinned
  · intro hunpinned hf
    rw [Option.some.injEq]
    constructor
    · intro hnone
      obtain hsame | ⟨g, -, -, -, hon⟩ | ⟨hclear, -⟩ := e.on?_perform_cases a hp
      · rw [hsame] at hnone
        exact absurd hnone hf
      · simp [hon] at hnone
      · exact hclear
    · rintro rfl
      rw [criteria_perform_clearAll]
      exact Criteria.on?_pinnedOnly_of_not_isPinned hunpinned
  · intro b hb hremove
    rw [← Option.some.inj hb] at hremove
    exact perform_of_asksToRemove hremove hp

/-- Where nothing is asked of the editor nothing happens to its filters. -/
theorem spares_refl (ctx : Context) (field : String) (e : Editor) : Spares ctx field e none e := by
  constructor
  · exact fun _ f hf hne => absurd hf hne
  · exact fun _ hf => ⟨fun hnone => absurd hnone hf, fun h => by contradiction⟩
  · exact fun a ha => by contradiction

end ViewFilters.Editor
