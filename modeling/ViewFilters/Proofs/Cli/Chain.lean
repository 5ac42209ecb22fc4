import Mathlib.Data.List.Forall2
import ViewFilters.Cli.Response
import ViewFilters.Proofs.Editor.Agreement
import ViewFilters.Proofs.Editor.Reload
import ViewFilters.Proofs.View.Project

/-!
# ViewFilters.Proofs.Cli.Chain

A chain of edits, each a command of its own on the query that the one before it
printed, comes to the same as one view that is edited in order:

```
query → view → edit → line → query → view → edit → line → …
query → view → edit ───────────────────────→ edit → …
```

Criteria are *reopenable* when a link can carry them and they are scoped.  A view
of any query has reopenable criteria, edits leave them so, and where no field is
hidden the view of the link to reopenable criteria has those very criteria.
Views with the same criteria agree on every edit.
-/

namespace ViewFilters.Cli

/-! ## edits in turn -/

/-- What an edit of a view comes to: the link to its criteria then, or the error. -/
def outcome (ctx : Context) (step : Step (View Json) (Except FilterError Bool)) :
    Except FilterError String :=
  step.result.map fun _ => step.state.query ctx

/-- An edit that succeeds comes to a link. -/
theorem eq_query_of_outcome {ctx : Context} {step : Step (View Json) (Except FilterError Bool)}
    {query : String} (h : outcome ctx step = .ok query) : query = step.state.query ctx := by
  unfold outcome at h
  cases hresult : step.result with
  | error e =>
      rw [hresult] at h
      contradiction
  | ok changed =>
      rw [hresult] at h
      exact (Except.ok.inj h).symm

/-- What edits of one view come to, in order, up to the first that fails. -/
def viewOutcomes (ctx : Context) : View Json → List Edit → List (Except FilterError String)
  | _, [] => []
  | v, edit :: edits =>
    let step := carryOut ctx v edit.actions
    match outcome ctx step with
    | .error e => [.error e]
    | .ok query => .ok query :: viewOutcomes ctx step.state edits

/-- What edits of queries come to, each of the link that the one before it came
to, up to the first that fails. -/
def queryOutcomes (ctx : Context) : String → List Edit → List (Except FilterError String)
  | _, [] => []
  | query, edit :: edits =>
    match outcome ctx (carryOut ctx (openView ctx query).1 edit.actions) with
    | .error e => [.error e]
    | .ok next => .ok next :: queryOutcomes ctx next edits

/-- The first line of some text, without its end. -/
def firstLine (text : String) : String := String.ofList (text.toList.takeWhile (· ≠ '\n'))

/-- The answers to edits that are commands of their own, each given the line that
the one before it printed, up to the first that fails. -/
def responses (answer : String → Edit → Response) : String → List Edit → List Response
  | _, [] => []
  | query, edit :: edits =>
    let response := answer query edit
    if response.code = 0 then
      response :: responses answer (firstLine response.stdout) edits
    else [response]

/-- The answer tells what an edit came to: the link on standard output, or the
error on standard error. -/
def Tells (response : Response) : Except FilterError String → Prop
  | .ok query => response.code = 0 ∧ response.stdout = line query
  | .error e => response.code = 1 ∧ response.stdout = "" ∧ response.stderr = errorLine e.message

/-! ## commands -/

/-- A command answers with what the edit of its query comes to. -/
theorem tells_respondEdit (colors : Bool) (ctx : Context) (file : ConfigFile) (query : String)
    (edit : Edit) : Tells (respondEdit colors ctx file query edit)
      (outcome ctx (carryOut ctx (openView ctx query).1 edit.actions)) := by
  unfold respondEdit outcome
  dsimp only
  cases (carryOut ctx (openView ctx query).1 edit.actions).result with
  | error e => exact ⟨rfl, rfl, rfl⟩
  | ok changed => exact ⟨rfl, rfl⟩

theorem firstLine_line {text : String} (h : '\n' ∉ text.toList) : firstLine (line text) = text := by
  have hall : ∀ c ∈ text.toList, decide (c ≠ '\n') = true := by
    intro c hc
    exact decide_eq_true fun heq => h (heq ▸ hc)
  have hend : (line text).toList = text.toList ++ ['\n'] := by
    rw [line, String.toList_append]
    rfl
  rw [firstLine, hend, List.takeWhile_append_of_pos hall, List.takeWhile_cons_of_neg (by simp),
    List.append_nil, String.ofList_toList]

/-- A link is on one line. -/
theorem firstLine_query (c : Criteria) (policy : Policy) :
    firstLine (line (c.query policy)) = c.query policy := by
  apply firstLine_line
  intro h
  have hc := FormUrl.isQueryChar_of_mem_write h
  simp [FormUrl.isQueryChar, FormUrl.isPlain] at hc

/-- Commands in turn answer with what edits of queries come to in turn. -/
theorem tells_responses (colors : Bool) (ctx : Context) (file : ConfigFile) (query : String)
    (edits : List Edit) :
    List.Forall₂ Tells (responses (respondEdit colors ctx file) query edits)
      (queryOutcomes ctx query edits) := by
  induction edits generalizing query with
  | nil => exact List.Forall₂.nil
  | cons edit edits ih =>
      have htells := tells_respondEdit colors ctx file query edit
      rw [responses, queryOutcomes]
      cases hout : outcome ctx (carryOut ctx (openView ctx query).1 edit.actions) with
      | error e =>
          rw [hout] at htells
          rw [if_neg (by rw [htells.1]; decide)]
          exact List.Forall₂.cons htells List.Forall₂.nil
      | ok next =>
          rw [hout] at htells
          have hnext : firstLine (line next) = next := by
            rw [eq_query_of_outcome hout]
            exact firstLine_query _ _
          rw [if_pos htells.1, htells.2, hnext]
          exact List.Forall₂.cons htells (ih next)

/-! ## the operations of an edit -/

/-- The edit asks for no page and no page size zero. -/
def Edit.CountsFromOne : Edit → Prop
  | page number size => number ≠ 0 ∧ size ≠ some 0
  | _ => True

theorem Edit.isLinkable_of_mem_actions {edit : Edit} (h : edit.CountsFromOne) {a : Action}
    (ha : a ∈ edit.actions) : a.IsLinkable := by
  cases edit with
  | set field operator values =>
      rw [List.mem_singleton.1 ha]
      trivial
  | remove field =>
      rw [List.mem_singleton.1 ha]
      trivial
  | clear =>
      rw [List.mem_singleton.1 ha]
      trivial
  | page number size =>
      obtain ⟨hnumber, hsize⟩ := h
      obtain hfirst | hlast := List.mem_append.1 ha
      · obtain ⟨n, hn, rfl⟩ := Option.map_eq_some_iff.1 (Option.mem_toList.1 hfirst)
        intro hzero
        rw [hn, hzero] at hsize
        contradiction
      · rw [List.mem_singleton.1 hlast]
        exact hnumber

/-- No edit uses the draft. -/
theorem Edit.applyDraft_notMem_actions (edit : Edit) : Action.applyDraft ∉ edit.actions := by
  cases edit with
  | page number size => cases size <;> simp [Edit.actions]
  | set | remove | clear => simp [Edit.actions]

/-! ## views with the same criteria -/

variable {β : Type} {ctx : Context}

theorem carryOut_agree (ctx : Context) {v w : View β} (h : v.editor.criteria = w.editor.criteria)
    {as : List Action} (hd : .applyDraft ∉ as) :
    (carryOut ctx v as).result = (carryOut ctx w as).result ∧
      (carryOut ctx v as).state.editor.criteria = (carryOut ctx w as).state.editor.criteria := by
  induction as generalizing v w with
  | nil => exact ⟨rfl, h⟩
  | cons a as ih =>
      rw [List.mem_cons, not_or] at hd
      have ha : Editor.Agree (v.editor.perform ctx a) (w.editor.perform ctx a) :=
        Editor.perform_agree h (fun heq => absurd heq.symm hd.1)
      have hresult : (v.edit ctx a 0).result = (w.edit ctx a 0).result := ha.result
      have hrest := @ih (v.edit ctx a 0).state (w.edit ctx a 0).state ha.criteria hd.2
      unfold carryOut
      dsimp only
      rw [hresult]
      cases (w.edit ctx a 0).result with
      | error e => exact ⟨rfl, ha.criteria⟩
      | ok changed => exact ⟨congrArg (Except.map (changed || ·)) hrest.1, hrest.2⟩

theorem outcome_agree {v w : View Json} (h : v.editor.criteria = w.editor.criteria) (edit : Edit) :
    outcome ctx (carryOut ctx v edit.actions) = outcome ctx (carryOut ctx w edit.actions) := by
  obtain ⟨hresult, hcriteria⟩ := carryOut_agree ctx h edit.applyDraft_notMem_actions
  have hquery : (carryOut ctx v edit.actions).state.query ctx =
      (carryOut ctx w edit.actions).state.query ctx := by
    rw [View.query, View.query, Editor.query, Editor.query, hcriteria]
  rw [outcome, outcome, hresult, hquery]

/-! ## reopenable criteria -/

/-- A link can carry the criteria, and they are scoped. -/
structure Reopenable (ctx : Context) (c : Criteria) : Prop where
  linkable : c.Linkable ctx
  project : Scoped ctx c

theorem criteria_openView (ctx : Context) (query : String) :
    (openView ctx query).1.editor.criteria =
      (View.keepToProject ctx (Criteria.ofQuery ctx (dropQuestionMark query)).1).1 := by
  simp only [openView, View.mount, Editor.criteria_mount]
  rfl

/-- The view of any query can be opened again. -/
theorem reopenable_openView (ctx : Context) (query : String) :
    Reopenable ctx (openView ctx query).1.editor.criteria := by
  rw [criteria_openView]
  have hlinkable := Criteria.linkable_ofQuery ctx (dropQuestionMark query)
  exact ⟨View.linkable_keepToProject hlinkable, View.scoped_keepToProject ctx _⟩

/-- Opening the link to reopenable criteria gives back what the link shows of them. -/
theorem visible_openView_query {c : Criteria} (h : Reopenable ctx c) :
    let reopened := (openView ctx (c.query ctx.policy)).1.editor.criteria
    reopened.visible ctx.policy = c.visible ctx.policy ∧ reopened.pagination = c.pagination := by
  intro reopened
  let shown : Criteria := ⟨c.visible ctx.policy, c.pagination⟩
  have hmark : dropQuestionMark (c.query ctx.policy) = c.query ctx.policy :=
    dropQuestionMark_write _
  have hreopened : reopened = (View.keepToProject ctx shown).1 := by
    have hopen := criteria_openView ctx (c.query ctx.policy)
    rwa [hmark, Criteria.ofQuery_query h.linkable] at hopen
  have hshown : shown.visible ctx.policy = c.visible ctx.policy :=
    Editor.visible_visible c ctx.policy
  rw [hreopened, View.pagination_keepToProject]
  refine ⟨?_, rfl⟩
  -- a filter on the project that is added now is not shown, or else there was one before
  cases hproject : ctx.policy.isHidden projectField with
  | true => rw [View.visible_keepToProject shown hproject, hshown]
  | false => rw [View.keepToProject_of_scoped (h.project.visible hproject), hshown]

/-- Where nothing is hidden, opening the link to reopenable criteria gives them back. -/
theorem criteria_openView_query {c : Criteria} (h : Reopenable ctx c)
    (hhidden : ctx.policy.hidden = []) :
    (openView ctx (c.query ctx.policy)).1.editor.criteria = c := by
  have hall : ∀ d : Criteria, d.visible ctx.policy = d.filters := by
    simp [Criteria.visible, Policy.isHidden, hhidden]
  obtain ⟨hfilters, hpagination⟩ := visible_openView_query h
  generalize (openView ctx (c.query ctx.policy)).1.editor.criteria = d at hfilters hpagination ⊢
  rw [hall, hall] at hfilters
  exact congrArg₂ Criteria.mk hfilters hpagination

theorem Reopenable.perform {e : Editor} {a : Action} (h : Reopenable ctx e.criteria)
    (hctx : ctx.KeepsProject) (hl : a.IsLinkable) :
    Reopenable ctx (e.perform ctx a).state.criteria :=
  Editor.criteria_perform_of_change h
    (fun _ hc => ⟨hc.linkable hl h.linkable, hc.scoped hctx h.project⟩)

theorem Reopenable.carryOut {v : View β} (h : Reopenable ctx v.editor.criteria)
    (hctx : ctx.KeepsProject) {as : List Action} (hl : ∀ a ∈ as, a.IsLinkable) :
    Reopenable ctx (carryOut ctx v as).state.editor.criteria := by
  induction as generalizing v with
  | nil => exact h
  | cons a as ih =>
      have ha : Reopenable ctx (v.edit ctx a 0).state.editor.criteria :=
        Reopenable.perform h hctx (hl a List.mem_cons_self)
      unfold Cli.carryOut
      dsimp only
      cases (v.edit ctx a 0).result with
      | error e => exact ha
      | ok changed => exact ih ha (fun b hb => hl b (List.mem_cons_of_mem a hb))

/-! ## one view or many -/

/-- Edits of a view and of the link to its criteria come to the same. -/
theorem queryOutcomes_eq_viewOutcomes {v : View Json} {query : String} {edits : List Edit}
    (hquery : (openView ctx query).1.editor.criteria = v.editor.criteria)
    (h : Reopenable ctx v.editor.criteria) (hctx : ctx.KeepsProject)
    (hhidden : ctx.policy.hidden = []) (hcounts : ∀ edit ∈ edits, edit.CountsFromOne) :
    queryOutcomes ctx query edits = viewOutcomes ctx v edits := by
  induction edits generalizing v query with
  | nil => rfl
  | cons edit edits ih =>
      rw [queryOutcomes, viewOutcomes, outcome_agree hquery]
      cases hout : outcome ctx (carryOut ctx v edit.actions) with
      | error e => rfl
      | ok next =>
          have hlink : ∀ a ∈ edit.actions, a.IsLinkable :=
            fun a ha => Edit.isLinkable_of_mem_actions (hcounts edit List.mem_cons_self) ha
          have hafter := h.carryOut hctx hlink
          have hnext : (openView ctx next).1.editor.criteria =
              (carryOut ctx v edit.actions).state.editor.criteria := by
            have hlinked : next = Criteria.query _ ctx.policy := eq_query_of_outcome hout
            rw [hlinked, criteria_openView_query hafter hhidden]
          have hrest : queryOutcomes ctx next edits =
              viewOutcomes ctx (carryOut ctx v edit.actions).state edits :=
            ih hnext hafter (fun e he => hcounts e (List.mem_cons_of_mem edit he))
          dsimp only
          rw [hrest]

/-- **Chains**: with a configuration that hides no field, and that pins the field
of its project, edits that are commands of their own and edits of one view come
to the same links, up to the same first edit that fails, with the same error;
and this is what the commands print. -/
theorem commands_eq_view (colors : Bool) (config : Config) (dir : String) (file : ConfigFile)
    (query : String) (edits : List Edit) (hhidden : config.hiddenFields = [])
    (hproject : config.projectId = none ∨ projectField ∈ config.pinnedFields)
    (hcounts : ∀ edit ∈ edits, edit.CountsFromOne) :
    let ctx := config.context
    let outcomes := viewOutcomes ctx (openView ctx query).1 edits
    queryOutcomes ctx query edits = outcomes ∧
      List.Forall₂ Tells
        (responses (fun query edit => respond colors config dir file (.edit query edit))
          query edits)
        outcomes := by
  intro ctx outcomes
  have hctx : ctx.KeepsProject := hproject.imp_right (fun hpinned => decide_eq_true hpinned)
  have hreopen : Reopenable ctx (openView ctx query).1.editor.criteria :=
    reopenable_openView ctx query
  have heq : queryOutcomes ctx query edits = outcomes :=
    queryOutcomes_eq_viewOutcomes rfl hreopen hctx hhidden hcounts
  refine ⟨heq, ?_⟩
  rw [← heq]
  exact tells_responses colors ctx file query edits

/-- Two values are put in, another page is shown, and then a filter on the page is
refused; the edit after it is not reached. -/
theorem commands_eq_view_of_refusal :
    let config := Config.standard
    let edits : List Edit :=
      [.set "result" "in" ["a b", "c"], .page 2 (some 50), .set "page" "eq" ["1"], .clear]
    let outcomes : List (Except FilterError String) :=
      [.ok "result=%5Bin%5Da+b%3Bc&page=1&pageSize=20",
        .ok "result=%5Bin%5Da+b%3Bc&page=2&pageSize=50", .error (.reservedField "page")]
    config.hiddenFields = [] ∧ (∀ edit ∈ edits, edit.CountsFromOne) ∧
      viewOutcomes config.context (openView config.context "?page=3").1 edits = outcomes ∧
      queryOutcomes config.context "?page=3" edits = outcomes ∧
      List.Forall₂ Tells
        (responses (fun query edit => respond false config "" .vacant (.edit query edit))
          "?page=3" edits)
        outcomes := by
  intro config edits outcomes
  have hhidden : config.hiddenFields = [] := rfl
  have hcounts : ∀ edit ∈ edits, edit.CountsFromOne := by
    simp [edits, Edit.CountsFromOne]
  have hview : viewOutcomes config.context (openView config.context "?page=3").1 edits =
      outcomes := by
    decide +kernel
  obtain ⟨hcommands, hprinted⟩ :=
    commands_eq_view false config "" .vacant "?page=3" edits hhidden (Or.inl rfl) hcounts
  rw [hview] at hcommands hprinted
  exact ⟨hhidden, hcounts, hview, hcommands, hprinted⟩

end ViewFilters.Cli
