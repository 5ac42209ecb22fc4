import ViewFilters.Config
import ViewFilters.Proofs.View.Session

/-!
# ViewFilters.Proofs.View.Current

What a view shows belongs to its current criteria.  The invariant of a session,
`Coherent`, ties the gate to the tickets:

1. no ticket is of a later generation than the current one, and those of the
   current generation carry the current request;
2. while a change waits for its request there is no ticket of its generation;
3. while none waits, the newest ticket is of the current generation, and its
   request is on its way or was answered with what is shown.

A response is therefore shown for the current request only, and no change stays
without a request.
-/

namespace ViewFilters.Session

variable {β : Type}

/-! ## the invariant -/

/-- The request of the current generation is on its way, or a response to one of
its tickets is shown. -/
def ShowsCurrent (s : Session β) : Prop :=
  s.view.listing = .loading s.view.gate.generation ∨
    ∃ t response, t ∈ s.issued ∧ (t, response) ∈ s.answered ∧
      t.generation = s.view.gate.generation ∧ t.request = s.view.request ∧
      s.view.listing = .ofResponse response

/-- The gate, the tickets and the listing of a session agree. -/
structure Coherent (ctx : Context) (s : Session β) : Prop where
  debounce : s.view.gate.debounce = ctx.debounce
  since : ∀ time ∈ s.view.gate.since, time = s.marked
  past : ∀ t ∈ s.issued, t.generation ≤ s.view.gate.generation
  current : ∀ t ∈ s.issued, t.generation = s.view.gate.generation → t.request = s.view.request
  waiting : s.view.gate.isPending = true →
    ∀ t ∈ s.issued, t.generation ≠ s.view.gate.generation
  sent : s.view.gate.isPending = false →
    (∃ t, s.issued.getLast? = some t ∧ t.generation = s.view.gate.generation) ∧ s.ShowsCurrent

variable {ctx : Context} {s : Session β}

/-- The current request is still shown after more tickets and more answers. -/
theorem ShowsCurrent.mono {s' : Session β} (h : s.ShowsCurrent)
    (hgeneration : s'.view.gate.generation = s.view.gate.generation)
    (hrequest : s'.view.request = s.view.request) (hlisting : s'.view.listing = s.view.listing)
    (hissued : s.issued ⊆ s'.issued) (hanswered : s.answered ⊆ s'.answered) :
    s'.ShowsCurrent := by
  unfold ShowsCurrent
  rw [hgeneration, hrequest, hlisting]
  obtain hloading | ⟨t, response, ht, hanswer, hrest⟩ := h
  · exact Or.inl hloading
  · exact Or.inr ⟨t, response, hissued ht, hanswered hanswer, hrest⟩

/-! ## one move -/

theorem coherent_start (ctx : Context) (h : History) (now : Nat) :
    Coherent ctx (start ctx h now : Session β) := by
  have hgate : (start ctx h now : Session β).view.gate = (FetchGate.new ctx.debounce).mark now := by
    simp only [start, View.mount]
  have hissued : (start ctx h now : Session β).issued = [] := rfl
  constructor
  · rw [hgate]
    rfl
  · intro time htime
    rw [hgate] at htime
    exact (Option.mem_some.1 htime).symm
  · rw [hissued]
    exact fun t ht => absurd ht List.not_mem_nil
  · rw [hissued]
    exact fun t ht => absurd ht List.not_mem_nil
  · rw [hissued]
    exact fun _ t ht => absurd ht List.not_mem_nil
  · intro hpending
    rw [hgate] at hpending
    contradiction

/-- An operation that is answered with a change leaves no ticket of the new generation. -/
theorem Coherent.mark (h : Coherent ctx s) (editor : Editor) (now : Nat) :
    Coherent ctx
      { s with view := ⟨editor, s.view.gate.mark now, s.view.listing⟩, marked := now } := by
  have hlater : ∀ t ∈ s.issued, t.generation ≠ (s.view.gate.mark now).generation := by
    intro t ht heq
    have hpast := h.past t ht
    rw [FetchGate.generation_mark] at heq
    omega
  constructor
  · exact h.debounce
  · exact fun time htime => (Option.mem_some.1 htime).symm
  · exact fun t ht => Nat.le_succ_of_le (h.past t ht)
  · exact fun t ht heq => absurd heq (hlater t ht)
  · exact fun _ => hlater
  · exact fun hpending => by contradiction

/-- An operation that leaves the request alone keeps a session coherent. -/
theorem Coherent.keep (h : Coherent ctx s) {editor : Editor}
    (hrequest : Request.ofCriteria editor.criteria = s.view.request) :
    Coherent ctx { s with view := { s.view with editor } } := by
  constructor
  · exact h.debounce
  · exact h.since
  · exact h.past
  · exact fun t ht heq => (h.current t ht heq).trans hrequest.symm
  · exact h.waiting
  · intro hpending
    obtain ⟨hlast, hshows⟩ := h.sent hpending
    exact ⟨hlast, hshows.mono rfl hrequest rfl (fun _ => id) (fun _ => id)⟩

theorem Coherent.issue (h : Coherent ctx s) : Coherent ctx s.issue := by
  have hmem : ∀ t, t ∈ s.issue.issued ↔ t ∈ s.issued ∨ t = s.view.demand.2 := by
    intro t
    simp only [Session.issue, List.mem_append, List.mem_singleton]
  constructor
  · exact h.debounce
  · exact fun time htime => by contradiction
  · intro t ht
    obtain ht | rfl := (hmem t).1 ht
    · exact h.past t ht
    · exact Nat.le_refl _
  · intro t ht heq
    obtain ht | rfl := (hmem t).1 ht
    · exact h.current t ht heq
    · rfl
  · exact fun hpending => by contradiction
  · intro _
    refine ⟨⟨s.view.demand.2, ?_, rfl⟩, Or.inl rfl⟩
    exact List.getLast?_concat

theorem Coherent.answer (h : Coherent ctx s) {t : Ticket} (ht : t ∈ s.issued)
    (response : Except String β) : Coherent ctx (s.answer t response) := by
  unfold Session.answer
  cases s.view.complete_cases t response with
  | inl happlied =>
      obtain ⟨hgeneration, -, hstate⟩ := happlied
      rw [hstate]
      refine ⟨h.debounce, h.since, h.past, h.current, h.waiting, fun hpending => ?_⟩
      refine ⟨(h.sent hpending).1, Or.inr ⟨t, response, ht, ?_, hgeneration, ?_, rfl⟩⟩
      · exact List.mem_append_right _ List.mem_cons_self
      · exact h.current t ht hgeneration
  | inr hstale =>
      obtain ⟨-, -, hstate⟩ := hstale
      rw [hstate]
      refine ⟨h.debounce, h.since, h.past, h.current, h.waiting, fun hpending => ?_⟩
      obtain ⟨hlast, hshows⟩ := h.sent hpending
      have hmore : s.answered ⊆ s.answered ++ [(t, response)] := List.subset_append_left _ _
      exact ⟨hlast, hshows.mono rfl rfl rfl (fun _ => id) hmore⟩

theorem Coherent.move (h : Coherent ctx s) (m : Move β) : Coherent ctx (s.move ctx m) := by
  cases m with
  | edit action now =>
      unfold Session.move
      dsimp only
      cases s.view.edit_cases ctx action now with
      | inl hchanged =>
          obtain ⟨hresult, hstate⟩ := hchanged
          rw [hresult, hstate]
          exact h.mark _ now
      | inr hkept =>
          obtain ⟨hresult, hstate, hrequest⟩ := hkept
          rw [hstate] at hrequest ⊢
          split
          · contradiction
          · exact h.keep hrequest
  | poll now =>
      rw [move_poll]
      split
      · exact h.issue
      · exact h
  | fetchNow send =>
      rw [move_fetchNow]
      refine h.issue.answer ?_ _
      exact List.mem_append_right _ List.mem_cons_self
  | complete number response =>
      rw [move_complete]
      split
      · next t ht => exact h.answer (List.mem_of_getElem? ht) response
      · exact h

/-- A session is coherent whatever was done with it. -/
theorem coherent_run (ctx : Context) (h : History) (now : Nat) (ms : List (Move β)) :
    Coherent ctx ((start ctx h now).run ctx ms) :=
  run_induction (coherent_start ctx h now) (fun _ m hs => hs.move m) ms

/-! ## what the invariant says of the gate -/

/-- While no change waits, the newest ticket has the current request. -/
theorem Coherent.newest (h : Coherent ctx s) (hsent : s.view.gate.isPending = false) :
    ∃ t, s.issued.getLast? = some t ∧ t.generation = s.view.gate.generation ∧
      t.request = s.view.request ∧ s.ShowsCurrent := by
  obtain ⟨⟨t, hlast, hgeneration⟩, hshows⟩ := h.sent hsent
  have ht : t ∈ s.issued := List.mem_of_getLast? hlast
  exact ⟨t, hlast, hgeneration, h.current t ht hgeneration, hshows⟩

/-- A change that waits is due once the quiet time has passed. -/
theorem Coherent.isDue (h : Coherent ctx s) (hpending : s.view.gate.isPending = true)
    {time : Nat} (htime : s.marked + ctx.debounce ≤ time) : s.view.gate.isDue time = true := by
  obtain ⟨since, hsince⟩ := Option.isSome_iff_exists.1 hpending
  have hmarked : since = s.marked := h.since since hsince
  unfold FetchGate.isDue
  rw [hsince, h.debounce, hmarked]
  apply decide_eq_true
  omega

/-! ## late responses -/

/-- **Responses**: after any run of moves, a response that is shown answers a
ticket with the request of the view as it is now, and one that is stale changes
nothing.  Neither touches the criteria, the draft, the history or the gate. -/
theorem complete_shows_current (ctx : Context) (h : History) (now : Nat) (ms : List (Move β)) :
    let s := (start ctx h now).run ctx ms
    (∀ t ∈ s.issued, ∀ response,
      let step := s.view.complete t response
      (step.result = .applied →
        t.request = s.view.request ∧ step.state.listing = .ofResponse response) ∧
      (step.result = .stale → step.state = s.view) ∧
      step.state.editor = s.view.editor ∧ step.state.gate = s.view.gate) ∧
    ∀ send,
      let step := s.view.fetchNow send
      step.result = (⟨s.view.gate.generation, s.view.request⟩, .applied) ∧
      step.state.listing = .ofResponse (send s.view.request) ∧
      step.state.editor = s.view.editor ∧
      step.state.gate.generation = s.view.gate.generation := by
  intro s
  have hs : Coherent ctx s := coherent_run ctx h now ms
  constructor
  · intro t ht response step
    refine ⟨fun happlied => ?_, View.state_of_stale, s.view.editor_gate_complete t response⟩
    obtain ⟨hgeneration, hstate⟩ := View.state_of_applied happlied
    have hstep : step.state = { s.view with listing := .ofResponse response } := hstate
    rw [hstep]
    exact ⟨hs.current t ht hgeneration, rfl⟩
  · intro send step
    obtain ⟨hresult, hstate⟩ := s.view.fetchNow_eq send
    have hstep : step.state =
        { s.view.demand.1 with listing := .ofResponse (send s.view.request) } := hstate
    refine ⟨hresult, ?_, ?_, ?_⟩
    · rw [hstep]
    · rw [hstep]
      rfl
    · rw [hstep]
      rfl

/-- A request sent before a change and one sent right after it, both answered late:
only the second answer is shown. -/
theorem complete_shows_current_late :
    let ctx := Config.standard.context
    let ms : List (Move Unit) :=
      [.poll 100, .edit (.setPage 3) 100, .fetchNow (fun _ => .error "busy")]
    let s := (start ctx (History.start "?page=2") 0).run ctx ms
    ∃ old new, s.issued = [old, new] ∧ (s.view.complete old (.ok ())).result = .stale ∧
      (s.view.complete old (.ok ())).state = s.view ∧
      (s.view.complete new (.ok ())).result = .applied ∧ new.request = s.view.request ∧
      (s.view.complete new (.ok ())).state.listing = .loaded () := by
  intro ctx ms s
  have hissued : s.issued = [⟨1, ⟨[], 2, 20⟩⟩, ⟨2, ⟨[], 3, 20⟩⟩] := by decide +kernel
  have hgeneration : s.view.gate.generation = 2 := by decide +kernel
  have hshown := (complete_shows_current ctx (History.start "?page=2") 0 ms).1
  -- from here on the session counts as any other, so that nothing is evaluated
  rw [show run ctx (start ctx (History.start "?page=2") 0) ms = s from rfl, hissued] at hshown
  clear_value s
  have hstale : (s.view.complete ⟨1, ⟨[], 2, 20⟩⟩ (.ok ())).result = .stale := by
    rw [View.result_complete, hgeneration]
    rfl
  have happlied : (s.view.complete ⟨2, ⟨[], 3, 20⟩⟩ (.ok ())).result = .applied := by
    rw [View.result_complete, hgeneration]
    rfl
  obtain ⟨-, hkept, -⟩ := hshown ⟨1, ⟨[], 2, 20⟩⟩ (by simp) (.ok ())
  obtain ⟨hcurrent, -⟩ := hshown ⟨2, ⟨[], 3, 20⟩⟩ (by simp) (.ok ())
  obtain ⟨hrequest, hlisting⟩ := hcurrent happlied
  exact ⟨_, _, hissued, hstale, hkept hstale, happlied, hrequest, hlisting⟩

/-! ## changes and requests -/

/-- **Requests**: after any run of moves, either a change waits for its request,
or the newest ticket has the current request, which is on its way or answered
with what is shown.  A request that is not the newest one goes out once the quiet
time has passed, and there is no ticket for a change that waits. -/
theorem requested_or_pending (ctx : Context) (h : History) (now : Nat) (ms : List (Move β)) :
    let s := (start ctx h now).run ctx ms
    (s.view.gate.isPending = true ∨
      ∃ t, s.issued.getLast? = some t ∧ t.generation = s.view.gate.generation ∧
        t.request = s.view.request ∧ s.ShowsCurrent) ∧
    (∀ time, (∀ t, s.issued.getLast? = some t → t.request ≠ s.view.request) →
      s.marked + ctx.debounce ≤ time →
        (s.view.poll time).2 = some ⟨s.view.gate.generation, s.view.request⟩) ∧
    (s.view.gate.isPending = true → ∀ t ∈ s.issued, t.generation ≠ s.view.gate.generation) := by
  intro s
  have hs : Coherent ctx s := coherent_run ctx h now ms
  refine ⟨?_, fun time hnew htime => ?_, hs.waiting⟩
  · cases hpending : s.view.gate.isPending with
    | true => exact Or.inl rfl
    | false =>
        obtain ⟨t, hlast, hgeneration, hrequest, hshows⟩ := hs.newest hpending
        exact Or.inr ⟨t, hlast, hgeneration, hrequest, hshows⟩
  · cases hpending : s.view.gate.isPending with
    | true => exact View.poll_of_isDue (hs.isDue hpending htime)
    | false =>
        obtain ⟨t, hlast, -, hrequest, -⟩ := hs.newest hpending
        exact absurd hrequest (hnew t hlast)

/-- A page set before the first request goes out with it, a quiet time later. -/
theorem requested_or_pending_of_setPage :
    let ctx := Config.standard.context
    let ms : List (Move Unit) := [.edit (.setPage 3) 50]
    let s := (start ctx (History.start "?page=2") 0).run ctx ms
    s.issued = [] ∧ s.marked + ctx.debounce ≤ 150 ∧
      (s.view.poll 150).2 = some ⟨s.view.gate.generation, ⟨[], 3, 20⟩⟩ := by
  intro ctx ms s
  have hissued : s.issued = [] := by decide +kernel
  have htime : s.marked + ctx.debounce ≤ 150 := by decide +kernel
  have hrequest : s.view.request = ⟨[], 3, 20⟩ := by decide +kernel
  have hdue := (requested_or_pending ctx (History.start "?page=2") 0 ms).2.1 150
  rw [show run ctx (start ctx (History.start "?page=2") 0) ms = s from rfl, hissued,
    hrequest] at hdue
  clear_value s
  exact ⟨hissued, htime, hdue (fun t ht => by contradiction) htime⟩

end ViewFilters.Session
