import ViewFilters.Config
import ViewFilters.Proofs.Criteria.ReadBack
import ViewFilters.Proofs.Editor.Commits
import ViewFilters.Proofs.History.Travel

/-!
# ViewFilters.Proofs.Editor.Reload

Reloading, and going back and forward, give a view its criteria again.

An editor is *synced* when its criteria are linkable and the link being shown
restores them.  Mounting gives a synced editor, and so does every operation that
is *linkable*, that is, asks for no page or page size zero and hands no operator
on lists an element with a `;` in it.  What was pushed on the way stays in the
history and restores the criteria that it was pushed for.
-/

namespace ViewFilters

/-- An operation whose result a link can carry. -/
def Action.IsLinkable : Action → Prop
  | .update _ op (some v) => op.mode = .multi → v.Separable
  | .setPage n => n ≠ 0
  | .setPageSize n => n ≠ 0
  | _ => True

/-- A set that is mounted on a history shows the visible filters, the page and
the page size of some criteria. -/
def Restores (ctx : Context) (h : History) (c : Criteria) : Prop :=
  (Editor.mount ctx h).1.criteria.visible ctx.policy = c.visible ctx.policy ∧
    (Editor.mount ctx h).1.criteria.pagination = c.pagination

namespace Editor

variable {ctx : Context} {e : Editor} {a : Action} {c : Criteria}

/-! ## linkable operations -/

theorem separable_of_asUpdate? {field : String} {op : Operator} {v : Value} (hl : a.IsLinkable)
    (ha : e.asUpdate? a = some (field, op, some v)) : op.mode = .multi → v.Separable := by
  cases a with
  | update field' op' value =>
      simp only [asUpdate?, Option.some.injEq, Prod.mk.injEq] at ha
      obtain ⟨-, rfl, rfl⟩ := ha
      exact hl
  | updateNamed field' name raw =>
      simp only [asUpdate?, Option.some.injEq, Prod.mk.injEq] at ha
      obtain ⟨-, rfl, hv⟩ := ha
      obtain ⟨text, -, rfl⟩ := Option.map_eq_some_iff.1 hv
      exact fun _ => Value.separable_parse _ text
  | applyDraft =>
      simp only [asUpdate?] at ha
      split at ha
      · next field' raw hfield hraw =>
        simp only [Option.some.injEq, Prod.mk.injEq] at ha
        obtain ⟨-, rfl, rfl⟩ := ha
        exact fun _ => Value.separable_parse _ raw
      · contradiction
  | remove | clearAll | setPage | setPageSize | setDraftField | setDraftOperator
  | setDraftValue => contradiction

/-- A linkable operation settles on linkable criteria. -/
theorem Change.linkable (hc : Change ctx e a c) (hl : a.IsLinkable)
    (h : e.criteria.Linkable ctx) : c.Linkable ctx := by
  have hone : (1 : UInt32) ≠ 0 := by decide
  cases hc with
  | put ha hv hb =>
      have hs := Filter.separable_of_build (separable_of_asUpdate? hl ha) hb
      exact (h.put (Filter.valid_of_build hb) hs).withPage hone
  | without ha hp hf => exact (h.without _).withPage hone
  | clear ha => exact (h.pinnedOnly _).withPage hone
  | page ha hn =>
      subst ha
      exact h.withPage hl
  | pageSize ha hn =>
      subst ha
      exact (h.withPageSize (Or.inl hl)).withPage hone

/-! ## synced editors -/

theorem visible_visible (c : Criteria) (policy : Policy) :
    Criteria.visible ⟨c.visible policy, c.pagination⟩ policy = c.visible policy := by
  simp [Criteria.visible]

theorem criteria_mount (ctx : Context) (h : History) :
    (mount ctx h).1.criteria = (Criteria.ofQuery ctx h.current).1 := by
  simp only [mount, ofQuery]

theorem history_mount (ctx : Context) (h : History) : (mount ctx h).1.history = h := by
  simp only [mount, ofQuery]

/-- The link to linkable criteria restores them. -/
theorem restores_of_current {h : History} (hc : c.Linkable ctx)
    (hq : h.current = c.query ctx.policy) : Restores ctx h c := by
  have hmount : (mount ctx h).1.criteria = ⟨c.visible ctx.policy, c.pagination⟩ := by
    rw [criteria_mount, hq, Criteria.ofQuery_query hc]
  rw [Restores, hmount]
  exact ⟨visible_visible c ctx.policy, rfl⟩

/-- The criteria are linkable, and the link being shown restores them. -/
structure Synced (ctx : Context) (e : Editor) : Prop where
  linkable : e.criteria.Linkable ctx
  restores : Restores ctx e.history e.criteria

theorem synced_mount (ctx : Context) (h : History) : Synced ctx (mount ctx h).1 := by
  constructor
  · rw [criteria_mount]
    exact Criteria.linkable_ofQuery ctx h.current
  · rw [Restores, history_mount]
    exact ⟨rfl, rfl⟩

/-- Whatever was settled on is synced once its link is committed. -/
theorem synced_commit (hc : e.criteria.Linkable ctx) : Synced ctx (commit ctx e).1 := by
  constructor
  · rw [criteria_commit]
    exact hc
  · rw [criteria_commit]
    exact restores_of_current hc (current_commit ctx e)

theorem Synced.perform (h : Synced ctx e) (hl : a.IsLinkable) :
    Synced ctx (e.perform ctx a).state := by
  have ho := perform_outcome ctx e a
  generalize e.perform ctx a = step at ho ⊢
  cases ho with
  | failed ha hv hb => exact h
  | kept hd => exact ⟨h.linkable, h.restores⟩
  | settled hc hs => exact synced_commit (hc.linkable hl h.linkable)

theorem Synced.run {as : List Action} (h : Synced ctx e) (hl : ∀ a ∈ as, a.IsLinkable) :
    Synced ctx (e.run ctx as) := by
  induction as generalizing e with
  | nil => exact h
  | cons a as ih =>
      have ha : Synced ctx (e.perform ctx a).state := h.perform (hl a List.mem_cons_self)
      exact ih ha (fun b hb => hl b (List.mem_cons_of_mem a hb))

/-! ## canonical links -/

/-- **Canonical links**: whatever a query holds, the link to what is read from it
gives the visible filters in order, the page and the page size, with nothing to
recover, and the link to these is the same link. -/
theorem query_canonical (ctx : Context) (text : String) (h h' : History) :
    let e := (ofQuery ctx text h).1
    let again := ofQuery ctx (e.query ctx) h'
    again.1.criteria.filters = e.criteria.visible ctx.policy ∧
      again.1.criteria.pagination = e.criteria.pagination ∧
      again.1.query ctx = e.query ctx ∧ again.2 = [] := by
  intro e again
  have he : e.criteria.Linkable ctx := by
    rw [criteria_ofQuery]
    exact Criteria.linkable_ofQuery ctx text
  -- that its criteria are linkable is all that counts of the first editor
  clear_value e
  have hread : Criteria.ofQuery ctx (e.query ctx) =
      (⟨e.criteria.visible ctx.policy, e.criteria.pagination⟩, []) := Criteria.ofQuery_query he
  have hcriteria : again.1.criteria = ⟨e.criteria.visible ctx.policy, e.criteria.pagination⟩ := by
    rw [criteria_ofQuery, hread]
  have hevents : again.2 = [] := by
    simp only [again, ofQuery, hread]
  have hquery : again.1.query ctx = e.query ctx := by
    simp only [query, Criteria.query, Criteria.pairs, hcriteria, visible_visible]
  rw [hcriteria]
  exact ⟨rfl, rfl, hquery, hevents⟩

/-- A key that comes again, an operator that there is not, one that the field does not take, and
page zero: the last value counts, equality is read, the filter is dropped, the page is the first. -/
example :
    let ctx := Config.standard.context
    let text := "component=[eq]ui&result=[like]failed&component=[ne]api" ++
      "&duration=[contains]5&page=0&pageSize=50"
    let e := (ofQuery ctx text (History.start text)).1
    let again := ofQuery ctx (e.query ctx) (History.start (e.query ctx))
    e.criteria.filters = [⟨"component", .ne, .text "api"⟩, ⟨"result", .eq, .text "failed"⟩] ∧
      e.criteria.pagination = ⟨1, 50⟩ ∧
      e.query ctx = "component=%5Bne%5Dapi&result=%5Beq%5Dfailed&page=1&pageSize=50" ∧
      again.1.criteria = e.criteria ∧ again.2 = [] := by
  decide +kernel

/-! ## what was pushed -/

/-- Operations from the newest entry drop none, and end at the newest one. -/
theorem entries_perform (ctx : Context) (h : e.history.AtEnd) (a : Action) :
    e.history.entries <+: (e.perform ctx a).state.history.entries ∧
      (e.perform ctx a).state.history.AtEnd := by
  cases history_perform ctx e a with
  | inl hkept =>
      rw [hkept]
      exact ⟨List.prefix_rfl, h⟩
  | inr hpushed =>
      rw [hpushed, History.entries_push_of_atEnd h]
      exact ⟨List.prefix_append _ _, History.atEnd_push _ _⟩

theorem entries_run (ctx : Context) (h : e.history.AtEnd) (as : List Action) :
    e.history.entries <+: (e.run ctx as).history.entries ∧ (e.run ctx as).history.AtEnd := by
  induction as generalizing e with
  | nil => exact ⟨List.prefix_rfl, h⟩
  | cons a as ih =>
      obtain ⟨hfirst, hend⟩ := entries_perform ctx h a
      obtain ⟨hrest, hlast⟩ := ih hend
      exact ⟨hfirst.trans hrest, hlast⟩

/-- An operation that moves the history pushes the link to the new criteria. -/
theorem entry_of_history_ne (h : (e.perform ctx a).state.history ≠ e.history) :
    let after := (e.perform ctx a).state
    after.history.AtEnd ∧
      after.history.entries[after.history.cursor]? = some (after.query ctx) := by
  have hpushed := (history_perform ctx e a).resolve_left h
  have hend : (e.perform ctx a).state.history.AtEnd := by
    rw [hpushed]
    exact History.atEnd_push _ _
  refine ⟨hend, ?_⟩
  rw [History.entry_of_atEnd hend, hpushed, History.current_push]

/-- What was pushed stays at its place, and the place can be gone back to. -/
theorem entry_run (ctx : Context) (h : e.history.AtEnd) (as : List Action) {query : String}
    (hq : e.history.entries[e.history.cursor]? = some query) :
    let e' := e.run ctx as
    e'.history.entries[e.history.cursor]? = some query ∧
      ∃ ts, (e'.history.travel ts).cursor = e.history.cursor := by
  obtain ⟨⟨more, hmore⟩, hend⟩ := entries_run ctx h as
  obtain ⟨hlt, -⟩ := List.getElem?_eq_some_iff.1 hq
  constructor
  · rw [← hmore, List.getElem?_append_left hlt, hq]
  · have hlength := congrArg List.length hmore
    rw [List.length_append, ← h, ← hend] at hlength
    exact History.exists_travel_cursor (by omega)

/-! ## whole runs -/

/-- **Reload and travel**: after any run of linkable operations, mounting anew
restores the criteria.  Each link that was pushed on the way is still in the
history, its place can be gone back to, and however one gets there, mounting
restores the criteria that it was pushed for. -/
theorem run_restores (ctx : Context) (h : History) (as : List Action)
    (hl : ∀ a ∈ as, a.IsLinkable) :
    let e := (mount ctx h).1.run ctx as
    Restores ctx e.history e.criteria ∧
      ∀ pre a post, as = pre ++ a :: post →
        let before := (mount ctx h).1.run ctx pre
        let after := (before.perform ctx a).state
        after.history ≠ before.history →
          e.history.entries[after.history.cursor]? = some (after.query ctx) ∧
            (∃ ts, (e.history.travel ts).cursor = after.history.cursor) ∧
            ∀ ts, (e.history.travel ts).cursor = after.history.cursor →
              Restores ctx (e.history.travel ts) after.criteria := by
  intro e
  refine ⟨((synced_mount ctx h).run hl).restores, ?_⟩
  rintro pre a post rfl before after hne
  have hafter : Synced ctx after := by
    have hbefore : Synced ctx before :=
      (synced_mount ctx h).run (fun b hb => hl b (List.mem_append_left _ hb))
    exact hbefore.perform (hl a (List.mem_append_right _ List.mem_cons_self))
  have he : e = after.run ctx post := run_append ctx _ pre (a :: post)
  obtain ⟨hend, hentry⟩ := entry_of_history_ne hne
  obtain ⟨hstays, hreach⟩ := entry_run ctx hend post hentry
  rw [← he] at hstays hreach
  refine ⟨hstays, hreach, fun ts hts => restores_of_current hafter.linkable ?_⟩
  rw [History.current_travel, hts, hstays, Option.getD_some]
  rfl

/-- A list with an empty element and with delimiters, put in and then left for
another page, is there again when one goes back to it. -/
theorem run_restores_of_list :
    let ctx := Config.standard.context
    let first := (mount ctx (History.start "?page=2")).1
    let put : Action := .update "result" .isIn (some (.list ["a&b", "", "[é]?"]))
    let after := (first.perform ctx put).state
    let e := first.run ctx [put, .setPage 3]
    (∀ a ∈ [put, .setPage 3], a.IsLinkable) ∧ after.history ≠ first.history ∧
      Restores ctx e.history e.criteria ∧
      ∃ ts, (e.history.travel ts).cursor = after.history.cursor ∧
        Restores ctx (e.history.travel ts) after.criteria := by
  intro ctx first put after e
  have hl : ∀ a ∈ [put, .setPage 3], a.IsLinkable := by
    simp [put, Action.IsLinkable, Value.Separable, listSeparator]
  have hne : after.history ≠ first.history := by decide +kernel
  have hr := run_restores ctx (History.start "?page=2") [put, .setPage 3] hl
  -- from here on the context counts as any other, so that nothing is evaluated
  clear_value ctx
  obtain ⟨hreload, htravel⟩ := hr
  obtain ⟨-, ⟨ts, hts⟩, hrestores⟩ := htravel [] put [.setPage 3] rfl hne
  exact ⟨hl, hne, hreload, ts, hts, hrestores ts hts⟩

end Editor

end ViewFilters
