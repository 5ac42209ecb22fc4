import ViewFilters.Proofs.Editor.Protection

/-!
# ViewFilters.Proofs.Editor.Intent

An editor's filters, as they follow from what was asked for.

An operation asks for an update of a field, for the removal of a field, for all
to be cleared, or for nothing that has to do with filters (`Editor.intent?`).
What comes of an intent depends on the context alone (`Intent.effect?`): a filter
is put in, the filter on a field is erased, all but the pinned ones are cleared,
or nothing.  So the filters after a run are a fold over its intents
(`Editor.filters_run`).

The filter on one field is a fold over the intents that concern the field
(`Editor.on?_run`), and its value is what the last of them came to
(`Editor.on?_run_eq_some_iff`).
-/

namespace ViewFilters

/-- What an operation asks of the filters. -/
inductive Intent where
  | update (field : String) (op : Operator) (value : Option Value)
  | remove (field : String)
  | clear

/-- What comes of an intent. -/
inductive Effect where
  | put (f : Filter)
  | erase (field : String)
  | clear

variable {ctx : Context} {policy : Policy} {field other : String} {f : Filter} {s : Selection}

/-! ## effects -/

namespace Effect

/-- The field that an effect is on.  Clearing is on none in particular. -/
def field? : Effect → Option String
  | .put f => some f.field
  | .erase field => some field
  | .clear => none

/-- The filters after an effect. -/
def apply (policy : Policy) : Effect → Selection → Selection
  | .put f, s => s.put f
  | .erase field, s => s.without field
  | .clear, s => s.filter fun f => policy.isPinned f.field

/-- The filter on a field after an effect. -/
def onField (policy : Policy) (field : String) : Effect → Option Filter → Option Filter
  | .put f, before => if f.field = field then some f else before
  | .erase other, before => if other = field then none else before
  | .clear, before => if policy.isPinned field then before else none

theorem on?_apply (x : Effect) (s : Selection) :
    Selection.on? (x.apply policy s) field = x.onField policy field (Selection.on? s field) := by
  cases x with
  | put f =>
      by_cases h : f.field = field
      · subst h
        rw [apply, onField, if_pos rfl, Selection.on?_put_self]
      · rw [apply, onField, if_neg h, Selection.on?_put_of_ne (Ne.symm h)]
  | erase other =>
      by_cases h : other = field
      · subst h
        rw [apply, onField, if_pos rfl, Selection.on?_without_self]
      · rw [apply, onField, if_neg h, Selection.on?_without_of_ne (Ne.symm h)]
  | clear =>
      -- the lemmas on clearing speak of criteria, whose page does not matter here
      cases h : policy.isPinned field with
      | true =>
          rw [onField, if_pos h]
          exact Criteria.on?_pinnedOnly (c := ⟨s, ⟨1, 1⟩⟩) h
      | false =>
          rw [onField, if_neg (by simp [h])]
          exact Criteria.on?_pinnedOnly_of_not_isPinned (c := ⟨s, ⟨1, 1⟩⟩) h

theorem onField_of_ne {x : Effect} (h : x.field? = some other) (hne : other ≠ field)
    (before : Option Filter) : x.onField policy field before = before := by
  cases x with
  | put f =>
      have hf : f.field ≠ field := by rwa [Option.some.inj h]
      exact if_neg hf
  | erase name =>
      have hname : name ≠ field := by rwa [Option.some.inj h]
      exact if_neg hname
  | clear => contradiction

end Effect

/-! ## intents -/

namespace Intent

/-- The field that an intent is on.  Clearing is on none in particular. -/
def field? : Intent → Option String
  | .update field _ _ => some field
  | .remove field => some field
  | .clear => none

/-- Whether an intent names a field or is to clear. -/
def concerns (field : String) (i : Intent) : Bool := i.field?.all (· = field)

/-- What comes of asking for a field to be without a filter. -/
def erasure? (ctx : Context) (field : String) : Option Effect :=
  if ctx.policy.isProtected field then none else some (.erase field)

/-- What comes of an intent, if anything. -/
def effect? (ctx : Context) : Intent → Option Effect
  | .update field op value =>
    match value.filter (!·.isEmpty) with
    | none => erasure? ctx field
    | some v =>
      match Filter.build ctx.catalog field op v with
      | .error _ => none
      | .ok f => some (.put f)
  | .remove field => erasure? ctx field
  | .clear => some .clear

/-- The filters after an intent is carried out. -/
def apply (ctx : Context) (i : Intent) (s : Selection) : Selection :=
  (i.effect? ctx).elim s fun x => x.apply ctx.policy s

/-- The filter on a field after an intent is carried out. -/
def onField (ctx : Context) (field : String) (before : Option Filter) (i : Intent) :
    Option Filter :=
  (i.effect? ctx).elim before fun x => x.onField ctx.policy field before

/-- An update that builds a filter from a value that is not empty. -/
def Puts (ctx : Context) (f : Filter) (i : Intent) : Prop := i.effect? ctx = some (.put f)

/-- An update without a value or a removal, of a field that is not protected, or the
clearing of a field that is not pinned. -/
def Erases (ctx : Context) (field : String) (i : Intent) : Prop :=
  i.effect? ctx = some (.erase field) ∨
    i.effect? ctx = some .clear ∧ ctx.policy.isPinned field = false

/-- An intent that decides on its own what the filter on a field is. -/
def Decides (ctx : Context) (field : String) (i : Intent) : Prop :=
  (∃ f, i.Puts ctx f ∧ f.field = field) ∨ i.Erases ctx field

variable {i : Intent} {x : Effect}

theorem effect?_remove_of_protected (h : ctx.policy.isProtected field = true) :
    (remove field).effect? ctx = none :=
  if_pos h

theorem effect?_remove (h : ¬ ctx.policy.isProtected field = true) :
    (remove field).effect? ctx = some (.erase field) :=
  if_neg h

/-- An update without a value, or with an empty one, is a removal. -/
theorem effect?_update_of_none {op : Operator} {value : Option Value}
    (h : value.filter (!·.isEmpty) = none) :
    (update field op value).effect? ctx = (remove field).effect? ctx := by
  simp only [effect?, h]

theorem effect?_update_of_error {op : Operator} {value : Option Value} {v : Value}
    {err : FilterError} (h : value.filter (!·.isEmpty) = some v)
    (hb : Filter.build ctx.catalog field op v = .error err) :
    (update field op value).effect? ctx = none := by
  simp only [effect?, h, hb]

theorem effect?_update_of_ok {op : Operator} {value : Option Value} {v : Value}
    (h : value.filter (!·.isEmpty) = some v)
    (hb : Filter.build ctx.catalog field op v = .ok f) :
    (update field op value).effect? ctx = some (.put f) := by
  simp only [effect?, h, hb]

/-- An intent comes to something on its own field. -/
theorem field?_of_effect? (h : i.effect? ctx = some x) : x.field? = i.field? := by
  have herasure : ∀ {field}, erasure? ctx field = some x → x.field? = some field := by
    intro field h
    unfold erasure? at h
    split at h
    · contradiction
    · rw [← Option.some.inj h]
      rfl
  cases i with
  | update field op value =>
      rw [effect?] at h
      split at h
      · exact herasure h
      split at h
      · contradiction
      · next f hb =>
        rw [← Option.some.inj h]
        exact congrArg some (Filter.field_of_build hb)
  | remove field => exact herasure h
  | clear =>
      rw [← Option.some.inj h]
      rfl

theorem apply_of_none (h : i.effect? ctx = none) (s : Selection) : i.apply ctx s = s := by
  rw [apply, h, Option.elim_none]

theorem apply_of_some (h : i.effect? ctx = some x) (s : Selection) :
    i.apply ctx s = x.apply ctx.policy s := by
  rw [apply, h, Option.elim_some]

theorem on?_apply (i : Intent) (s : Selection) :
    Selection.on? (i.apply ctx s) field = i.onField ctx field (Selection.on? s field) := by
  unfold apply onField
  cases i.effect? ctx with
  | none => rfl
  | some x => exact x.on?_apply s

/-! ### one field -/

theorem onField_of_not_concerns (h : i.concerns field = false) (before : Option Filter) :
    i.onField ctx field before = before := by
  unfold onField
  cases hx : i.effect? ctx with
  | none => rfl
  | some x =>
      cases hi : i.field? with
      | none => simp [concerns, hi] at h
      | some other =>
          have hne : other ≠ field := by simpa [concerns, hi] using h
          exact x.onField_of_ne ((field?_of_effect? hx).trans hi) hne before

/-- A field has the filter that an intent puts there, or the one it had before if the
intent does not decide about the field. -/
theorem onField_eq_some_iff {before : Option Filter} :
    i.onField ctx field before = some f ↔
      (i.Puts ctx f ∧ f.field = field) ∨ (before = some f ∧ ¬ i.Decides ctx field) := by
  unfold onField Decides Erases Puts
  cases hx : i.effect? ctx with
  | none => simp
  | some x =>
      cases x with
      | put g =>
          by_cases hg : g.field = field
          · have hput : g = f ↔ g = f ∧ f.field = field :=
              ⟨fun h => ⟨h, h ▸ hg⟩, And.left⟩
            simpa [Effect.onField, hg] using hput
          · have hput : ¬ (g = f ∧ f.field = field) := fun h => hg (h.1 ▸ h.2)
            simp [Effect.onField, hg, hput]
      | erase other => by_cases h : other = field <;> simp [Effect.onField, h]
      | clear => cases h : ctx.policy.isPinned field <;> simp [Effect.onField, h]

/-- The last of some intents that decides about a field puts a filter there. -/
def LastPuts (ctx : Context) (field : String) (f : Filter) (is : List Intent) : Prop :=
  ∃ before i after, is = before ++ i :: after ∧ i.Puts ctx f ∧ f.field = field ∧
    ∀ j ∈ after, ¬ j.Decides ctx field

theorem lastPuts_cons_iff {is : List Intent} :
    LastPuts ctx field f (i :: is) ↔
      ((i.Puts ctx f ∧ f.field = field) ∧ ∀ j ∈ is, ¬ j.Decides ctx field) ∨
        LastPuts ctx field f is := by
  constructor
  · rintro ⟨before, k, after, heq, hput, hf, hafter⟩
    cases before with
    | nil =>
        obtain ⟨rfl, rfl⟩ := List.cons.inj heq
        exact Or.inl ⟨⟨hput, hf⟩, hafter⟩
    | cons j before =>
        exact Or.inr ⟨before, k, after, (List.cons.inj heq).2, hput, hf, hafter⟩
  · rintro (⟨⟨hput, hf⟩, hafter⟩ | ⟨before, k, after, rfl, hput, hf, hafter⟩)
    · exact ⟨[], i, is, rfl, hput, hf, hafter⟩
    · exact ⟨i :: before, k, after, rfl, hput, hf, hafter⟩

/-- After some intents a field has the filter that the last to decide puts there, or
the first one if none of them decides. -/
theorem foldl_onField_eq_some_iff {is : List Intent} {first : Option Filter} :
    is.foldl (onField ctx field) first = some f ↔
      LastPuts ctx field f is ∨ (first = some f ∧ ∀ i ∈ is, ¬ i.Decides ctx field) := by
  induction is generalizing first with
  | nil =>
      have hnone : ¬ LastPuts ctx field f [] := by simp [LastPuts]
      simp [hnone]
  | cons i is ih =>
      rw [List.foldl_cons, ih, onField_eq_some_iff, lastPuts_cons_iff, List.forall_mem_cons,
        or_and_right, and_assoc (a := first = some f), ← or_assoc,
        or_comm (a := LastPuts ctx field f is)]

theorem foldl_onField_filter (is : List Intent) (first : Option Filter) :
    (is.filter (·.concerns field)).foldl (onField ctx field) first =
      is.foldl (onField ctx field) first := by
  induction is generalizing first with
  | nil => rfl
  | cons i is ih =>
      cases h : i.concerns field with
      | true => rw [List.filter_cons_of_pos h, List.foldl_cons, List.foldl_cons, ih]
      | false =>
          rw [List.filter_cons_of_neg (by simp [h]), ih, List.foldl_cons,
            onField_of_not_concerns h]

theorem on?_foldl_apply (is : List Intent) (s : Selection) :
    Selection.on? (is.foldl (fun s i => i.apply ctx s) s) field =
      is.foldl (onField ctx field) (Selection.on? s field) := by
  induction is generalizing s with
  | nil => rfl
  | cons i is ih => rw [List.foldl_cons, ih, on?_apply, List.foldl_cons]

end Intent

/-! ## what an editor is asked for -/

namespace Editor

/-- What an operation asks of the filters.  A complete draft asks for the update that
it stands for, an incomplete one for nothing. -/
def intent? (e : Editor) (a : Action) : Option Intent :=
  match a with
  | .remove field => some (.remove field)
  | .clearAll => some .clear
  | a => (e.asUpdate? a).map fun (field, op, value) => .update field op value

/-- What a run asks of the filters, in order. -/
def intents (ctx : Context) : Editor → List Action → List Intent
  | _, [] => []
  | e, a :: as => (e.intent? a).toList ++ intents ctx (e.perform ctx a).state as

/-! ### one operation -/

@[simp] theorem criteria_settle (ctx : Context) (e : Editor) (c : Criteria) (changed : Bool) :
    (e.settle ctx c changed).state.criteria = c :=
  criteria_commit ctx _

theorem filters_remove (ctx : Context) (e : Editor) (field : String) :
    (e.remove ctx field).state.criteria.filters =
      (Intent.remove field).apply ctx e.criteria.filters := by
  unfold remove
  split
  · next hp => rw [Intent.apply_of_none (Intent.effect?_remove_of_protected hp)]
  · next hp =>
    rw [Intent.apply_of_some (Intent.effect?_remove hp)]
    split
    · next hnone => exact (Selection.without_of_notMem (Selection.on?_eq_none_iff.1 hnone)).symm
    · rw [criteria_settle]
      rfl

theorem filters_update (ctx : Context) (e : Editor) (field : String) (op : Operator)
    (value : Option Value) :
    (e.update ctx field op value).state.criteria.filters =
      (Intent.update field op value).apply ctx e.criteria.filters := by
  unfold update
  split
  · next hnone =>
    rw [Step.state_map, filters_remove, Intent.apply, Intent.apply,
      Intent.effect?_update_of_none hnone]
  · next v hv =>
    split
    · next err hb => rw [Intent.apply_of_none (Intent.effect?_update_of_error hv hb)]
    · next f hb =>
      rw [Intent.apply_of_some (Intent.effect?_update_of_ok hv hb), Step.state_map,
        criteria_settle]
      rfl

theorem filters_applyDraft (ctx : Context) (e : Editor) :
    (e.applyDraft ctx).state.criteria.filters =
      (e.intent? .applyDraft).elim e.criteria.filters fun i =>
        i.apply ctx e.criteria.filters := by
  unfold applyDraft
  split
  · next field raw hfield hraw =>
    have hi : e.intent? .applyDraft = some (.update field (e.draft.operator.getD .fallback)
        (some (Value.parse (e.draft.operator.getD .fallback).mode raw))) := by
      simp only [intent?, asUpdate?_of_draft hfield hraw, Option.map_some]
    rw [hi, Option.elim_some, ← filters_update]
    dsimp only
    split <;> rfl
  · next hdraft =>
    have hi : e.intent? .applyDraft = none := by
      simp only [intent?, asUpdate?, Option.map_none]
    rw [hi, Option.elim_none]
    rfl

/-- **Steps**: the filters after an operation are what its intent makes of them. -/
theorem filters_perform (ctx : Context) (e : Editor) (a : Action) :
    (e.perform ctx a).state.criteria.filters =
      (e.intent? a).elim e.criteria.filters fun i => i.apply ctx e.criteria.filters := by
  cases a with
  | update field op value => exact filters_update ctx e field op value
  | updateNamed field name raw => exact filters_update ctx e field _ _
  | remove field => exact filters_remove ctx e field
  | clearAll => exact congrArg Criteria.filters (criteria_perform_clearAll ctx e)
  | setPage n =>
      simp only [perform, setPage, Step.state_map]
      split
      · rfl
      · rw [criteria_settle]
        rfl
  | setPageSize n =>
      simp only [perform, setPageSize, Step.state_map]
      split
      · rfl
      · rw [criteria_settle]
        rfl
  | setDraftField field => rfl
  | setDraftOperator op => rfl
  | setDraftValue value => rfl
  | applyDraft => exact filters_applyDraft ctx e

theorem intent?_of_asUpdate? {e : Editor} {a : Action} {op : Operator} {value : Option Value}
    (h : e.asUpdate? a = some (field, op, value)) :
    e.intent? a = some (.update field op value) := by
  cases a <;> first | contradiction | simp [intent?, h]

/-- Asking for a field that is not protected to be without a filter leaves it without one. -/
theorem filters_of_asksToRemove {e : Editor} {a : Action} (h : e.AsksToRemove a field)
    (hp : ctx.policy.isProtected field = false) :
    (e.perform ctx a).state.criteria.filters = Selection.without e.criteria.filters field := by
  have hremove : (Intent.remove field).effect? ctx = some (.erase field) :=
    Intent.effect?_remove (by simp [hp])
  rw [filters_perform]
  obtain rfl | ⟨op, value, ha, hempty⟩ := h
  · exact Intent.apply_of_some hremove _
  · have hnone : value.filter (!·.isEmpty) = none := by
      simpa [Option.filter_eq_none_iff] using hempty
    rw [intent?_of_asUpdate? ha]
    exact Intent.apply_of_some ((Intent.effect?_update_of_none hnone).trans hremove) _

/-! ### a run -/

theorem run_concat (ctx : Context) (e : Editor) (as : List Action) (a : Action) :
    e.run ctx (as ++ [a]) = ((e.run ctx as).perform ctx a).state :=
  run_append ctx e as [a]

/-- **Runs**: the filters after a run are what its intents, in order, make of them. -/
theorem filters_run (ctx : Context) (e : Editor) (as : List Action) :
    (e.run ctx as).criteria.filters =
      (e.intents ctx as).foldl (fun s i => i.apply ctx s) e.criteria.filters := by
  induction as generalizing e with
  | nil => rfl
  | cons a as ih =>
      rw [run, ih, filters_perform, intents, List.foldl_append]
      cases e.intent? a <;> rfl

/-- **Fields**: the filter on a field after a run is what the intents that concern the
field make of the first one. -/
theorem on?_run (ctx : Context) (e : Editor) (as : List Action) (field : String) :
    (e.run ctx as).criteria.on? field =
      ((e.intents ctx as).filter (·.concerns field)).foldl (Intent.onField ctx field)
        (e.criteria.on? field) := by
  rw [Criteria.on?, filters_run, Intent.on?_foldl_apply, Intent.foldl_onField_filter]
  rfl

/-- What the filter on a field is after a run. -/
theorem on?_run_eq_some_iff {e : Editor} {as : List Action} :
    (e.run ctx as).criteria.on? field = some f ↔
      Intent.LastPuts ctx field f (e.intents ctx as) ∨
        (e.criteria.on? field = some f ∧ ∀ i ∈ e.intents ctx as, ¬ i.Decides ctx field) := by
  rw [on?_run, Intent.foldl_onField_filter, Intent.foldl_onField_eq_some_iff]

end Editor

end ViewFilters
