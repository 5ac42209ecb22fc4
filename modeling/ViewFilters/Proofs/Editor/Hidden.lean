import ViewFilters.Proofs.Editor.Reload
import ViewFilters.Request

/-!
# ViewFilters.Proofs.Editor.Hidden

Filters on hidden fields leave no trace in links.  Two editors are *alike* when
they differ at most in what hidden fields are compared with:

```
first     component=ui   secret=a       page 3
second    component=ui   secret in b,c  page 3
```

Their links are the same, and so is every decision to push one.  Alike editors
that carry out the same operations stay alike, also when an update of a hidden
field asks for different filters in the two, as long as both get theirs
(`Parallel.alike`).
-/

namespace ViewFilters

variable {policy : Policy}

/-! ## alike selections -/

/-- Filters on the same field, which are the same unless the field is hidden. -/
structure Filter.Alike (policy : Policy) (f g : Filter) : Prop where
  field : f.field = g.field
  same : policy.isHidden f.field = false → f = g

theorem Filter.Alike.refl (f : Filter) : Filter.Alike policy f f := ⟨rfl, fun _ => rfl⟩

namespace Selection

/-- Selections that differ at most in the filters on hidden fields. -/
inductive Alike (policy : Policy) : Selection → Selection → Prop where
  | nil : Alike policy [] []
  | cons {f g : Filter} {s t : Selection} (hf : Filter.Alike policy f g) (hs : Alike policy s t) :
      Alike policy (f :: s) (g :: t)

variable {s t : Selection}

theorem Alike.refl (s : Selection) : Alike policy s s := by
  induction s with
  | nil => exact .nil
  | cons f s ih => exact .cons (Filter.Alike.refl f) ih

theorem Alike.put (h : Alike policy s t) {f g : Filter} (hf : Filter.Alike policy f g) :
    Alike policy (put s f) (put t g) := by
  induction h with
  | nil => exact .cons hf .nil
  | cons hx hs ih =>
      simp only [Selection.put, hx.field, hf.field]
      split
      · exact .cons hf hs
      · exact .cons hx ih

/-- What is kept of alike selections by field is alike. -/
theorem Alike.filter (h : Alike policy s t) (p : String → Bool) :
    Alike policy (s.filter fun f => p f.field) (t.filter fun f => p f.field) := by
  induction h with
  | nil => exact .nil
  | cons hx hs ih =>
      simp only [List.filter_cons, hx.field]
      split
      · exact .cons hx ih
      · exact ih

theorem Alike.fields (h : Alike policy s t) : fields s = fields t := by
  induction h with
  | nil => rfl
  | cons hx hs ih => rw [fields_cons, fields_cons, hx.field, ih]

theorem Alike.filter_visible (h : Alike policy s t) :
    (s.filter fun f => !policy.isHidden f.field) = t.filter fun f => !policy.isHidden f.field := by
  induction h with
  | nil => rfl
  | @cons f g s t hx hs ih =>
      cases hhidden : policy.isHidden f.field with
      | true =>
          have hg : policy.isHidden g.field = true := hx.field ▸ hhidden
          simp [hhidden, hg, ih]
      | false =>
          rw [← hx.same hhidden]
          simp [hhidden, ih]

end Selection

/-! ## alike criteria -/

namespace Criteria

/-- Criteria that differ at most in the filters on hidden fields. -/
structure Alike (policy : Policy) (c c' : Criteria) : Prop where
  filters : Selection.Alike policy c.filters c'.filters
  pagination : c.pagination = c'.pagination

variable {c c' : Criteria}

theorem Alike.query (h : Alike policy c c') : c.query policy = c'.query policy := by
  have hvisible : c.visible policy = c'.visible policy := h.filters.filter_visible
  rw [Criteria.query, Criteria.query, pairs, pairs, hvisible, h.pagination]

theorem Alike.on?_eq_none_iff (h : Alike policy c c') (field : String) :
    c.on? field = none ↔ c'.on? field = none := by
  simp only [on?, Selection.on?_eq_none_iff, h.filters.fields]

theorem Alike.withPage (h : Alike policy c c') (n : UInt32) :
    Alike policy (c.withPage n) (c'.withPage n) :=
  ⟨h.filters, by simp only [Criteria.withPage, h.pagination]⟩

theorem Alike.withPageSize (h : Alike policy c c') (n : UInt32) :
    Alike policy (c.withPageSize n) (c'.withPageSize n) :=
  ⟨h.filters, by simp only [Criteria.withPageSize, h.pagination]⟩

theorem Alike.put (h : Alike policy c c') {f g : Filter} (hf : Filter.Alike policy f g) :
    Alike policy (c.put f) (c'.put g) :=
  ⟨h.filters.put hf, h.pagination⟩

theorem Alike.without (h : Alike policy c c') (field : String) :
    Alike policy (c.without field) (c'.without field) :=
  ⟨h.filters.filter fun other => other ≠ field, h.pagination⟩

theorem Alike.pinnedOnly (h : Alike policy c c') :
    Alike policy (c.pinnedOnly policy) (c'.pinnedOnly policy) :=
  ⟨h.filters.filter policy.isPinned, h.pagination⟩

end Criteria

/-! ## keys of a link -/

theorem fst_of_mem_countPair {key : String} {count : UInt32} {pair : String × String}
    (h : pair ∈ countPair key count) : pair.1 = key := by
  unfold countPair at h
  split at h
  · contradiction
  · rw [List.mem_singleton.1 h]

theorem Pagination.isReserved_of_mem_pairs {p : Pagination} {pair : String × String}
    (h : pair ∈ p.pairs) : isReserved pair.1 = true := by
  obtain h | h := List.mem_append.1 h
  · rw [fst_of_mem_countPair h]
    rfl
  · rw [fst_of_mem_countPair h]
    rfl

/-- Of the keys of a link only those of the pagination may be hidden. -/
theorem Criteria.isReserved_of_mem_query {c : Criteria} {pair : String × String}
    (hp : pair ∈ FormUrl.read (dropQuestionMark (c.query policy)))
    (hh : policy.isHidden pair.1 = true) : isReserved pair.1 = true := by
  rw [query, dropQuestionMark_write, FormUrl.read_write, pairs] at hp
  obtain hp | hp := List.mem_append.1 hp
  · obtain ⟨f, hf, rfl⟩ := List.mem_map.1 hp
    have hvisible := (List.mem_filter.1 hf).2
    have hfield : policy.isHidden f.field = true := hh
    simp [hfield] at hvisible
  · exact Pagination.isReserved_of_mem_pairs hp

/-! ## alike editors -/

namespace Editor

/-- Editors that differ at most in the filters on hidden fields. -/
structure Alike (ctx : Context) (e e' : Editor) : Prop where
  criteria : Criteria.Alike ctx.policy e.criteria e'.criteria
  draft : e.draft = e'.draft
  history : e.history = e'.history

/-- Steps to alike editors that fail both or neither. -/
structure AlikeStep (ctx : Context) (s t : Step Editor (Except FilterError Bool)) : Prop where
  state : s.state.Alike ctx t.state
  result : (∃ err, s.result = .error err ∧ t.result = .error err) ∨
    ∃ b b', s.result = .ok b ∧ t.result = .ok b'

variable {ctx : Context} {e e' : Editor} {c c' : Criteria}

theorem Alike.refl (e : Editor) : Alike ctx e e := ⟨⟨.refl _, rfl⟩, rfl, rfl⟩

theorem Alike.query (h : Alike ctx e e') : e.query ctx = e'.query ctx := h.criteria.query

theorem Alike.commit (h : Alike ctx e e') : Alike ctx (commit ctx e).1 (commit ctx e').1 := by
  constructor
  · simp only [criteria_commit, h.criteria]
  · simp only [draft_commit, h.draft]
  · simp only [Editor.commit, h.query, h.history]
    split <;> simp [h.history]

theorem stay_alike (h : Alike ctx e e') : AlikeStep ctx (e.stay.map .ok) (e'.stay.map .ok) :=
  ⟨h, Or.inr ⟨false, false, rfl, rfl⟩⟩

/-- Whether the criteria changed has no part in what is pushed. -/
theorem settle_alike (h : Alike ctx e e') (hc : Criteria.Alike ctx.policy c c')
    (changed changed' : Bool) :
    AlikeStep ctx ((e.settle ctx c changed).map .ok) ((e'.settle ctx c' changed').map .ok) := by
  have hset : Alike ctx { e with criteria := c } { e' with criteria := c' } :=
    ⟨hc, h.draft, h.history⟩
  exact ⟨hset.commit, Or.inr ⟨changed, changed', rfl, rfl⟩⟩

/-! ## the same operation -/

theorem remove_alike (h : Alike ctx e e') (field : String) :
    AlikeStep ctx ((e.remove ctx field).map .ok) ((e'.remove ctx field).map .ok) := by
  have hon := h.criteria.on?_eq_none_iff field
  unfold remove
  split
  · exact ⟨h, Or.inr ⟨false, false, rfl, rfl⟩⟩
  cases hf : e.criteria.on? field with
  | none =>
      rw [hon.1 hf]
      exact stay_alike h
  | some f =>
      cases hg : e'.criteria.on? field with
      | none => simp [hon.2 hg] at hf
      | some g => exact settle_alike h ((h.criteria.without field).withPage 1) true true

theorem update_alike (h : Alike ctx e e') (field : String) (op : Operator) (value : Option Value) :
    AlikeStep ctx (e.update ctx field op value) (e'.update ctx field op value) := by
  unfold update
  split
  · exact remove_alike h field
  split
  · next err hb => exact ⟨h, Or.inl ⟨err, rfl, rfl⟩⟩
  · next f hb =>
    exact settle_alike h ((h.criteria.put (.refl f)).withPage 1) _ _

theorem setPage_alike (h : Alike ctx e e') (n : UInt32) :
    AlikeStep ctx ((e.setPage ctx n).map .ok) ((e'.setPage ctx n).map .ok) := by
  unfold setPage Criteria.page
  rw [h.criteria.pagination]
  split
  · exact stay_alike h
  · exact settle_alike h (h.criteria.withPage n) true true

theorem setPageSize_alike (h : Alike ctx e e') (n : UInt32) :
    AlikeStep ctx ((e.setPageSize ctx n).map .ok) ((e'.setPageSize ctx n).map .ok) := by
  unfold setPageSize Criteria.page Criteria.pageSize
  rw [h.criteria.pagination]
  split
  · exact stay_alike h
  · exact settle_alike h ((h.criteria.withPageSize n).withPage 1) true true

theorem applyDraft_alike (h : Alike ctx e e') :
    AlikeStep ctx (e.applyDraft ctx) (e'.applyDraft ctx) := by
  unfold applyDraft
  rw [h.draft]
  split
  · next field raw hfield hraw =>
    have hu : AlikeStep ctx (e.update ctx field (e'.draft.operator.getD .fallback) _)
        (e'.update ctx field (e'.draft.operator.getD .fallback) _) :=
      update_alike h field _ (some (Value.parse (e'.draft.operator.getD .fallback).mode raw))
    dsimp only
    obtain ⟨err, hs, ht⟩ | ⟨b, b', hs, ht⟩ := hu.result
    · rw [hs, ht]
      exact ⟨hu.state, Or.inl ⟨err, rfl, rfl⟩⟩
    · rw [hs, ht]
      exact ⟨⟨hu.state.criteria, rfl, hu.state.history⟩, Or.inr ⟨true, true, rfl, rfl⟩⟩
  · exact stay_alike h

theorem perform_alike (h : Alike ctx e e') (a : Action) :
    AlikeStep ctx (e.perform ctx a) (e'.perform ctx a) := by
  cases a with
  | update field op value => exact update_alike h field op value
  | updateNamed field name raw =>
      have hu : AlikeStep ctx (e.update ctx field _ _) (e'.update ctx field _ _) :=
        update_alike h field (Operator.orFallback name).1
          (raw.map (Value.parse (Operator.orFallback name).1.mode))
      exact ⟨hu.state, hu.result⟩
  | remove field => exact remove_alike h field
  | clearAll =>
      have hblank : Alike ctx { e with draft := Draft.blank } { e' with draft := Draft.blank } :=
        ⟨h.criteria, rfl, h.history⟩
      exact settle_alike hblank (h.criteria.pinnedOnly.withPage 1) _ _
  | setPage n => exact setPage_alike h n
  | setPageSize n => exact setPageSize_alike h n
  | setDraftField field =>
      exact stay_alike ⟨h.criteria, by simp only [setDraftField, h.draft], h.history⟩
  | setDraftOperator op =>
      exact stay_alike ⟨h.criteria, by simp only [setDraftOperator, h.draft], h.history⟩
  | setDraftValue value =>
      exact stay_alike ⟨h.criteria, by simp only [setDraftValue, h.draft], h.history⟩
  | applyDraft => exact applyDraft_alike h

/-! ## updates of a hidden field -/

theorem hidden_update_alike (h : Alike ctx e e') {field : String} {op op' : Operator}
    {v v' : Value} {b b' : Bool} (hhidden : ctx.policy.isHidden field = true)
    (hv : v.isEmpty = false) (hv' : v'.isEmpty = false)
    (hs : (e.update ctx field op (some v)).result = .ok b)
    (hs' : (e'.update ctx field op' (some v')).result = .ok b') :
    AlikeStep ctx (e.update ctx field op (some v)) (e'.update ctx field op' (some v')) := by
  obtain ⟨f, hf⟩ := build_of_update hv hs
  obtain ⟨g, hg⟩ := build_of_update hv' hs'
  have hfg : Filter.Alike ctx.policy f g := by
    constructor
    · rw [Filter.field_of_build hf, Filter.field_of_build hg]
    · intro hvisible
      rw [Filter.field_of_build hf, hhidden] at hvisible
      contradiction
  obtain ⟨c, hc⟩ := @update_of_build ctx e _ _ _ _ hv hf
  obtain ⟨c', hc'⟩ := @update_of_build ctx e' _ _ _ _ hv' hg
  rw [hc, hc']
  exact settle_alike h ((h.criteria.put hfg).withPage 1) c c'

/-! ## parallel runs -/

/-- Runs of two editors with the same operations, but for updates of hidden fields: these
may ask for different filters, as long as they ask for one and get it. -/
inductive Parallel (ctx : Context) : Editor → Editor → List Action → List Action → Prop where
  | nil {e e' : Editor} : Parallel ctx e e' [] []
  | same {e e' : Editor} {as as' : List Action} (a : Action)
      (h : Parallel ctx (e.perform ctx a).state (e'.perform ctx a).state as as') :
      Parallel ctx e e' (a :: as) (a :: as')
  | hidden {e e' : Editor} {as as' : List Action} {field : String} {op op' : Operator}
      {v v' : Value} {b b' : Bool} (hhidden : field ∈ ctx.policy.hidden)
      (hv : v.isEmpty = false) (hv' : v'.isEmpty = false)
      (hs : (e.update ctx field op (some v)).result = .ok b)
      (hs' : (e'.update ctx field op' (some v')).result = .ok b')
      (h : Parallel ctx (e.update ctx field op (some v)).state
        (e'.update ctx field op' (some v')).state as as') :
      Parallel ctx e e' (.update field op (some v) :: as) (.update field op' (some v') :: as')

/-- Alike editors stay alike, at every moment of parallel runs. -/
theorem Parallel.alike {as as' : List Action} (hp : Parallel ctx e e' as as')
    (h : Alike ctx e e') (n : Nat) : Alike ctx (e.run ctx (as.take n)) (e'.run ctx (as'.take n)) := by
  induction hp generalizing n with
  | nil => simpa using h
  | @same e e' as as' a hrest ih =>
      cases n with
      | zero => exact h
      | succ n => exact ih (perform_alike h a).state n
  | @hidden e e' as as' field op op' v v' b b' hhidden hv hv' hs hs' hrest ih =>
      cases n with
      | zero => exact h
      | succ n =>
          have hfield : ctx.policy.isHidden field = true := decide_eq_true hhidden
          exact ih (hidden_update_alike h hfield hv hv' hs hs').state n

/-! ## hidden fields -/

/-- **Hidden fields**: in parallel runs from one editor the history and the link are the
same at every moment.  What any run pushes has no pair for a hidden field, unless the field
is named like a key of the pagination, while requests hold a token for every filter. -/
theorem hidden_filters_unseen (ctx : Context) :
    (∀ e as as', Parallel ctx e e as as' → ∀ n,
      (e.run ctx (as.take n)).history = (e.run ctx (as'.take n)).history ∧
        (e.run ctx (as.take n)).query ctx = (e.run ctx (as'.take n)).query ctx) ∧
    ∀ (e : Editor) (as : List Action),
      (∀ a,
        let before := e.run ctx as
        let after := (before.perform ctx a).state
        after.history ≠ before.history →
          ∀ pair ∈ FormUrl.read (dropQuestionMark after.history.current),
            pair.1 ∈ ctx.policy.hidden → isReserved pair.1 = true) ∧
      (Request.ofCriteria (e.run ctx as).criteria).filter =
        (e.run ctx as).criteria.filters.map Filter.token := by
  refine ⟨fun e as as' hp n => ?_, fun e as => ⟨?_, rfl⟩⟩
  · have h := hp.alike (Alike.refl e) n
    exact ⟨h.history, h.query⟩
  · intro a before after hne pair hp hh
    have hpushed := (history_perform ctx before a).resolve_left hne
    have hcurrent : after.history.current = after.query ctx := by
      rw [hpushed, History.current_push]
    rw [hcurrent] at hp
    exact Criteria.isReserved_of_mem_query hp (decide_eq_true hh)

/-- A hidden field is asked for what it is already in one run and for a list in the
other; then a page is gone to and a visible filter removed. -/
theorem hidden_filters_unseen_of_list :
    let config : Config := { Config.standard with hiddenFields := ["secret"] }
    let ctx := config.context
    let e := (mount ctx (History.start "?secret=a&component=ui&page=3")).1
    let rest : List Action := [.setPage 2, .remove "component"]
    let as := .update "secret" .eq (some (.text "a")) :: rest
    let as' := .update "secret" .isIn (some (.list ["b", "c"])) :: rest
    Parallel ctx e e as as' ∧ (e.run ctx as).criteria ≠ (e.run ctx as').criteria ∧
      (e.run ctx as).history ≠ e.history ∧ (e.run ctx as).history = (e.run ctx as').history := by
  intro config ctx e rest as as'
  have hdiffer : (e.run ctx as).criteria ≠ (e.run ctx as').criteria ∧
      (e.run ctx as).history ≠ e.history := by
    decide +kernel
  have hf : Filter.build ctx.catalog "secret" .eq (.text "a") = .ok ⟨"secret", .eq, .text "a"⟩ :=
    rfl
  have hg : Filter.build ctx.catalog "secret" .isIn (.list ["b", "c"]) =
      .ok ⟨"secret", .isIn, .list ["b", "c"]⟩ := rfl
  have hmem : "secret" ∈ ctx.policy.hidden := List.mem_singleton.2 rfl
  -- from here on the editor counts as any other, so that nothing is evaluated
  clear_value e
  obtain ⟨b, hb⟩ := @update_of_build ctx e _ _ _ _ (by decide) hf
  obtain ⟨b', hb'⟩ := @update_of_build ctx e _ _ _ _ (by decide) hg
  have hp : Parallel ctx e e as as' :=
    .hidden hmem (by decide) (by decide) (congrArg Step.result hb) (congrArg Step.result hb')
      (.same _ (.same _ .nil))
  have hsame := (hidden_filters_unseen ctx).1 e as as' hp 3
  exact ⟨hp, hdiffer.1, hdiffer.2, hsame.1⟩

end Editor

end ViewFilters
