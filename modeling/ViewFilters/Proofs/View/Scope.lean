import ViewFilters.Proofs.Criteria.LastWins
import ViewFilters.Proofs.View.Protection
import ViewFilters.Proofs.View.Valid

/-!
# ViewFilters.Proofs.View.Scope

A view of a project never sends a request without one, provided that the project
field is pinned:

1. mounting leaves a filter on the project field, the one that the link brings or
   else the one for the project of the context (`on?_mount`);
2. the field is pinned, so a filter stays there;
3. there is one filter per field, so it is the only one, and its token is in
   every request.
-/

namespace ViewFilters

/-! ## tokens -/

theorem Request.token_mem_ofCriteria {c : Criteria} {field : String} {f : Filter}
    (h : c.on? field = some f) : f.token ∈ (ofCriteria c).filter :=
  List.mem_map_of_mem (Selection.mem_of_on? h)

/-! ## mounting -/

/-- The filter that keeps a view to a project. -/
def projectFilter (project : String) : Filter := ⟨projectField, .eq, .text project⟩

/-- A project with a name can be filtered on, whatever the catalog says of its field. -/
theorem build_projectFilter (catalog : Catalog) {project : String} (h : project ≠ "") :
    Filter.build catalog projectField .eq (.text project) = .ok (projectFilter project) := by
  refine Filter.build_eq_ok_iff.2 ⟨by decide, by decide, catalog.isLegal_eq _, .text project, rfl,
    ?_, rfl⟩
  simpa [Value.isEmpty] using h

namespace View

variable {β : Type} {ctx : Context} {project : String}

theorem on?_keepToProject (hproject : ctx.project = some project) (hne : project ≠ "")
    (c : Criteria) :
    (keepToProject ctx c).1.on? projectField =
      some ((c.on? projectField).getD (projectFilter project)) := by
  unfold keepToProject
  rw [hproject]
  cases hon : c.on? projectField with
  | some f => exact hon
  | none =>
      dsimp only
      rw [build_projectFilter ctx.catalog hne]
      exact Selection.on?_put_self c.filters (projectFilter project)

/-- A view that was just mounted has the project filter of its link, which is that
of the last value there, or else the one for its project. -/
theorem on?_mount (hproject : ctx.project = some project) (hne : project ≠ "") (h : History)
    (now : Nat) :
    (mount ctx h now : View β × List Event).1.editor.criteria.on? projectField =
      some (((lastValue? projectField (FormUrl.read (dropQuestionMark h.current))).bind
        fun raw => (Filter.recover ctx.catalog projectField raw).1).getD
          (projectFilter project)) := by
  rw [editor_mount, on?_keepToProject hproject hne, Criteria.on?_ofQuery ctx (by decide)]

/-! ## requests -/

/-- Whatever is asked of the backend, the filter on a field is asked for. -/
theorem token_mem_requests {v : View β} {field : String} {f : Filter}
    (h : v.editor.criteria.on? field = some f) :
    (∀ time t, (v.poll time).2 = some t →
      t.request = Request.ofCriteria v.editor.criteria ∧ f.token ∈ t.request.filter) ∧
    ∀ send,
      let request := (v.fetchNow send).result.1.request
      request = Request.ofCriteria v.editor.criteria ∧ f.token ∈ request.filter ∧
        (v.fetchNow send).state.listing = .ofResponse (send request) := by
  have htoken := Request.token_mem_ofCriteria h
  constructor
  · intro time t ht
    have hrequest : t.request = Request.ofCriteria v.editor.criteria := request_of_poll ht
    rw [hrequest]
    exact ⟨rfl, htoken⟩
  · intro send request
    obtain ⟨hresult, hstate⟩ := v.fetchNow_eq send
    have hrequest : request = Request.ofCriteria v.editor.criteria := by
      simp only [request, hresult]
      rfl
    rw [hrequest, hstate]
    exact ⟨rfl, htoken, rfl⟩

/-- **Scope**: in every run of a view of a project whose field is pinned there is
exactly one filter on that field, and every request, polled or made at once,
holds its token.  The view starts with the filter of its link or of its project. -/
theorem requests_scoped (hproject : ctx.project = some project) (hne : project ≠ "")
    (hpinned : projectField ∈ ctx.policy.pinned) (h : History) (now : Nat)
    (ops : List (Operation β)) :
    (let v : View β := (mount ctx h now).1.run ctx ops
      ∃ f, v.editor.criteria.filters.filter (fun g => g.field = projectField) = [f] ∧
        (∀ time t, (v.poll time).2 = some t →
          t.request = Request.ofCriteria v.editor.criteria ∧ f.token ∈ t.request.filter) ∧
        ∀ send,
          let request := (v.fetchNow send).result.1.request
          request = Request.ofCriteria v.editor.criteria ∧ f.token ∈ request.filter ∧
            (v.fetchNow send).state.listing = .ofResponse (send request)) ∧
    (mount ctx h now : View β × List Event).1.editor.criteria.on? projectField =
      some (((lastValue? projectField (FormUrl.read (dropQuestionMark h.current))).bind
        fun raw => (Filter.recover ctx.catalog projectField raw).1).getD
          ⟨projectField, .eq, .text project⟩) := by
  have hpin : ctx.policy.isPinned projectField = true := decide_eq_true hpinned
  have hmounted := @on?_mount β ctx project hproject hne h now
  refine ⟨?_, hmounted⟩
  intro v
  have hkept : v.editor.criteria.on? projectField ≠ none := by
    rw [editor_run]
    refine Editor.on?_run_ne_none hpin ?_ _
    rw [hmounted]
    exact Option.some_ne_none _
  obtain ⟨f, hf⟩ := Option.ne_none_iff_exists'.1 hkept
  have hvalid : Selection.Valid ctx.catalog v.editor.criteria.filters :=
    valid_run (valid_mount ctx h now) ops
  exact ⟨f, Selection.filter_field_eq hvalid.distinct hf, token_mem_requests hf⟩

/-- A link whose last project parameter stands for no filter, and a user who tries to
get rid of the project: the view asks for its project all the same. -/
theorem requests_scoped_of_erased :
    let ctx := Config.standard.context.withProject "p-1"
    let h := History.start "?project_id=[eq]other&project_id=[in];"
    let ops : List (Operation Unit) :=
      [.edit (.remove projectField) 10, .complete ⟨7, ⟨[], 1, 1⟩⟩ (.ok ()), .edit .clearAll 20]
    let v : View Unit := (mount ctx h 0).1.run ctx ops
    ctx.project = some "p-1" ∧ "p-1" ≠ "" ∧ projectField ∈ ctx.policy.pinned ∧
      (mount ctx h 0 : View Unit × List Event).1.editor.criteria.on? projectField =
        some ⟨projectField, .eq, .text "p-1"⟩ ∧
      ∃ f, v.editor.criteria.filters.filter (fun g => g.field = projectField) = [f] ∧
        ∀ send, f.token ∈ (v.fetchNow send).result.1.request.filter := by
  intro ctx h ops v
  have hproject : ctx.project = some "p-1" := rfl
  have hne : "p-1" ≠ "" := by decide
  have hpinned : projectField ∈ ctx.policy.pinned := List.mem_singleton.2 rfl
  have hlink : ((lastValue? projectField (FormUrl.read (dropQuestionMark h.current))).bind
      fun raw => (Filter.recover ctx.catalog projectField raw).1) = none := by
    decide +kernel
  obtain ⟨⟨f, hone, -, hfetch⟩, hmounted⟩ := requests_scoped hproject hne hpinned h 0 ops
  rw [hlink, Option.getD_none] at hmounted
  have hv : (mount ctx h 0 : View Unit × List Event).1.run ctx ops = v := rfl
  rw [hv] at hone hfetch
  -- from here on the view counts as any other, so that nothing is evaluated
  clear_value v
  exact ⟨hproject, hne, hpinned, hmounted, f, hone, fun send => (hfetch send).2.1⟩

end View

end ViewFilters
