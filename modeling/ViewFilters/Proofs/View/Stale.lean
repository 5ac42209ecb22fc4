import ViewFilters.Config
import ViewFilters.Proofs.Editor.Answer
import ViewFilters.Proofs.View.Session

/-!
# ViewFilters.Proofs.View.Stale

When a response comes too late.  A move *moves a session on* when it is an operation that
changes the criteria or applies the draft.  These moves start a new generation, and no
others do:

```
move            criteria       generation    waits
edit            changed        next          from then on
applyDraft      as before      next          from then on
edit            as before      as before     as before
poll, fetchNow  as before      as before     no more, or as before
complete        as before      as before     as before
```

The response to a ticket is stale exactly when a move after its issue moved the session
on (`stale_iff_moved_on`).  Because of the second row this may be without a change: a
draft of the filter in force makes a request stale that is still the current one
(`not_stale_only_after_change`).
-/

namespace ViewFilters.Session

variable {β : Type} {ctx : Context} {s : Session β} {m : Move β} {t : Ticket}

/-! ## one move -/

/-- The move is an operation that moves the editor on. -/
def MovesOn (ctx : Context) (s : Session β) (m : Move β) : Prop :=
  ∃ action now, m = .edit action now ∧ s.view.editor.MovesOn ctx action

theorem movesOn_edit_iff {action : Action} {now : Nat} :
    s.MovesOn ctx (.edit action now) ↔ s.view.editor.MovesOn ctx action := by
  constructor
  · rintro ⟨action', now', heq, hmoves⟩
    cases heq
    exact hmoves
  · exact fun hmoves => ⟨action, now, rfl, hmoves⟩

theorem view_move_edit (ctx : Context) (s : Session β) (action : Action) (now : Nat) :
    (s.move ctx (.edit action now)).view = (s.view.edit ctx action now).state := rfl

/-- A move that moves the session on is a change to the gate. -/
theorem gate_move_of_movesOn (h : s.MovesOn ctx m) :
    ∃ time, (s.move ctx m).view.gate = s.view.gate.mark time := by
  obtain ⟨action, now, rfl, hmoves⟩ := h
  have hresult : (s.view.edit ctx action now).result = .ok true :=
    Editor.result_eq_ok_true_iff.2 hmoves
  refine ⟨now, ?_⟩
  cases s.view.edit_cases ctx action now with
  | inl hchanged => rw [view_move_edit, hchanged.2]
  | inr hkept => exact absurd hresult hkept.1

/-- A move that does not move the session on is at most a request to the gate. -/
theorem gate_move_of_not_movesOn (h : ¬ s.MovesOn ctx m) :
    (s.move ctx m).view.gate = s.view.gate ∨
      (s.move ctx m).view.gate = s.view.gate.clear := by
  cases m with
  | edit action now =>
      cases s.view.edit_cases ctx action now with
      | inl hchanged =>
          have hmoves : s.view.editor.MovesOn ctx action :=
            Editor.result_eq_ok_true_iff.1 hchanged.1
          exact absurd (movesOn_edit_iff.2 hmoves) h
      | inr hkept =>
          rw [view_move_edit, hkept.2.1]
          exact Or.inl rfl
  | poll now =>
      rw [move_poll]
      split
      · exact Or.inr rfl
      · exact Or.inl rfl
  | fetchNow send =>
      rw [move_fetchNow]
      exact Or.inr (s.issue.view.editor_gate_complete _ _).2
  | complete number response =>
      rw [move_complete]
      split
      · exact Or.inl (s.view.editor_gate_complete _ _).2
      · exact Or.inl rfl

/-- The generation of a session. -/
def generation (s : Session β) : Nat := s.view.gate.generation

theorem generation_move_of_movesOn (h : s.MovesOn ctx m) :
    (s.move ctx m).generation = s.generation + 1 := by
  obtain ⟨time, hgate⟩ := gate_move_of_movesOn h
  rw [generation, hgate]
  rfl

theorem generation_move_of_not_movesOn (h : ¬ s.MovesOn ctx m) :
    (s.move ctx m).generation = s.generation := by
  unfold generation
  cases gate_move_of_not_movesOn h with
  | inl hkept => rw [hkept]
  | inr hcleared => rw [hcleared, FetchGate.generation_clear]

/-- A ticket is of the generation in which it is issued. -/
theorem generation_of_issued (h : (s.move ctx m).issued = s.issued ++ [t]) :
    t.generation = (s.move ctx m).generation := by
  have hnone : s.issued ≠ s.issued ++ [t] := by simp
  cases m with
  | edit action now => exact absurd h hnone
  | poll now =>
      rw [move_poll] at h ⊢
      split at h
      · have ht : s.view.demand.2 = t := by simpa [issue] using h
        rw [← ht, if_pos ‹_›]
        rfl
      · exact absurd h hnone
  | fetchNow send =>
      rw [move_fetchNow] at h ⊢
      have ht : s.view.demand.2 = t := by simpa [issue, answer] using h
      rw [generation, answer, (s.issue.view.editor_gate_complete _ _).2, ← ht]
      rfl
  | complete number response =>
      rw [move_complete] at h
      split at h
      · exact absurd h hnone
      · exact absurd h hnone

/-! ## runs -/

/-- One of the moves moves the session on, where the moves before it led to. -/
def MovesOnIn (ctx : Context) (s : Session β) (ms : List (Move β)) : Prop :=
  ∃ earlier m later, ms = earlier ++ m :: later ∧ (s.run ctx earlier).MovesOn ctx m

theorem movesOnIn_nil : ¬ s.MovesOnIn ctx [] := by
  rintro ⟨earlier, m, later, heq, -⟩
  simp at heq

theorem movesOnIn_cons_iff {ms : List (Move β)} :
    s.MovesOnIn ctx (m :: ms) ↔ s.MovesOn ctx m ∨ (s.move ctx m).MovesOnIn ctx ms := by
  constructor
  · rintro ⟨earlier, m', later, heq, hmoves⟩
    cases earlier with
    | nil =>
        cases heq
        exact Or.inl hmoves
    | cons first earlier =>
        cases heq
        exact Or.inr ⟨earlier, m', later, rfl, hmoves⟩
  · rintro (hmoves | ⟨earlier, m', later, rfl, hmoves⟩)
    · exact ⟨[], m, ms, rfl, hmoves⟩
    · exact ⟨m :: earlier, m', later, rfl, hmoves⟩

theorem generation_le_run (ctx : Context) (s : Session β) (ms : List (Move β)) :
    s.generation ≤ (s.run ctx ms).generation := by
  refine run_induction (P := fun s' => s.generation ≤ s'.generation) (Nat.le_refl _) ?_ ms
  intro s' m hle
  by_cases h : s'.MovesOn ctx m
  · rw [generation_move_of_movesOn h]
    omega
  · rwa [generation_move_of_not_movesOn h]

/-- The generation is another one exactly when a move moved the session on. -/
theorem generation_run_ne_iff (ctx : Context) (s : Session β) (ms : List (Move β)) :
    s.generation ≠ (s.run ctx ms).generation ↔ s.MovesOnIn ctx ms := by
  induction ms generalizing s with
  | nil => exact iff_of_false (fun hne => hne rfl) movesOnIn_nil
  | cons m ms ih =>
      rw [movesOnIn_cons_iff, ← ih]
      by_cases h : s.MovesOn ctx m
      · have hnext := generation_move_of_movesOn h
        have hle := generation_le_run ctx (s.move ctx m) ms
        refine iff_of_true (fun heq => ?_) (Or.inl h)
        rw [show s.run ctx (m :: ms) = (s.move ctx m).run ctx ms from rfl] at heq
        omega
      · rw [generation_move_of_not_movesOn h]
        exact (or_iff_right h).symm

/-! ## late responses -/

/-- **Staleness**: the response to a ticket is stale exactly when a move after its issue
moved the session on.  Such a move starts a new generation and schedules its request; no
other move does either.  Generations are counted without an upper limit: with a counter of
64 bits this is so for runs of fewer than 2^64 changes. -/
theorem stale_iff_moved_on (ctx : Context) (h : History) (now : Nat) (ms : List (Move β))
    (m : Move β) (t : Ticket)
    (hissued : ((start ctx h now).run ctx (ms ++ [m])).issued =
      ((start ctx h now).run ctx ms).issued ++ [t]) :
    (∀ after response,
      (((start ctx h now).run ctx (ms ++ m :: after)).view.complete t response).result = .stale ↔
        ((start ctx h now).run ctx (ms ++ [m])).MovesOnIn ctx after) ∧
    ∀ (s : Session β) (next : Move β),
      (s.MovesOn ctx next → ∃ time, (s.move ctx next).view.gate = s.view.gate.mark time) ∧
      (¬ s.MovesOn ctx next → (s.move ctx next).view.gate = s.view.gate ∨
        (s.move ctx next).view.gate = s.view.gate.clear) := by
  refine ⟨fun after response => ?_,
    fun s next => ⟨gate_move_of_movesOn, gate_move_of_not_movesOn⟩⟩
  rw [run_append] at hissued
  have hgeneration := generation_of_issued hissued
  rw [List.append_cons, run_append _ _ (ms ++ [m]), ← generation_run_ne_iff, run_append,
    View.result_complete, hgeneration]
  unfold generation
  split
  · next heq => exact iff_of_false (fun h => by contradiction) (fun hne => hne heq)
  · next hne => exact iff_of_true rfl hne

/-- A response that is late by a page, for the change and not for the page set again. -/
theorem stale_iff_moved_on_of_setPage :
    let ctx := Config.standard.context
    let s : Session Unit := start ctx (History.start "?page=2") 0
    let after : List (Move Unit) := [.edit (.setPage 2) 110, .edit (.setPage 3) 120]
    (s.run ctx [.poll 100]).issued = s.issued ++ [⟨1, ⟨[], 2, 20⟩⟩] ∧
      ((s.run ctx (.poll 100 :: after)).view.complete ⟨1, ⟨[], 2, 20⟩⟩ (.ok ())).result =
        .stale := by
  intro ctx s after
  have hissued : (s.run ctx [.poll 100]).issued = s.issued ++ [⟨1, ⟨[], 2, 20⟩⟩] := by
    decide +kernel
  have hchanged :
      let e := ((s.run ctx [.poll 100]).run ctx [.edit (.setPage 2) 110]).view.editor
      (e.perform ctx (.setPage 3)).state.criteria ≠ e.criteria := by decide +kernel
  have hmoves : (s.run ctx [.poll 100]).MovesOnIn ctx after :=
    ⟨[.edit (.setPage 2) 110], .edit (.setPage 3) 120, [], rfl,
      movesOn_edit_iff.2 (Or.inl hchanged)⟩
  have hstale := (stale_iff_moved_on ctx (History.start "?page=2") 0 [] (.poll 100)
    ⟨1, ⟨[], 2, 20⟩⟩ hissued).1 after (.ok ())
  exact ⟨hissued, hstale.2 hmoves⟩

/-- A draft of the filter in force makes a request stale without a change. -/
theorem not_stale_only_after_change :
    ¬ ∀ (ctx : Context) (h : History) (now : Nat) (ms : List (Move Unit)) (m : Move Unit)
      (t : Ticket) (after : List (Move Unit)) (response : Except String Unit),
      ((start ctx h now).run ctx (ms ++ [m])).issued =
        ((start ctx h now).run ctx ms).issued ++ [t] →
      (((start ctx h now).run ctx (ms ++ m :: after)).view.complete t response).result = .stale →
      ∃ earlier m' later, after = earlier ++ m' :: later ∧
        ((start ctx h now).run ctx (ms ++ m :: earlier ++ [m'])).view.editor.criteria ≠
          ((start ctx h now).run ctx (ms ++ m :: earlier)).view.editor.criteria := by
  intro hall
  let ctx := Config.standard.context
  let link := History.start "component=%5Beq%5Dui&page=1&pageSize=20"
  let ms : List (Move Unit) :=
    [.edit (.setDraftField "component") 0, .edit (.setDraftValue "ui") 0]
  let t : Ticket := ⟨1, ⟨["component=ui"], 1, 20⟩⟩
  have hissued : ((start ctx link 0).run ctx (ms ++ [.poll 100])).issued =
      ((start ctx link 0).run ctx ms).issued ++ [t] := by decide +kernel
  have hstale : (((start ctx link 0).run ctx
      (ms ++ .poll 100 :: [.edit .applyDraft 200])).view.complete t (.ok ())).result =
        .stale := by decide +kernel
  let criteria (ms : List (Move Unit)) := ((start ctx link 0).run ctx ms).view.editor.criteria
  have hsame : criteria (ms ++ .poll 100 :: [] ++ [.edit .applyDraft 200]) =
      criteria (ms ++ .poll 100 :: []) := by decide +kernel
  obtain ⟨earlier, m', later, hafter, hchanged⟩ :=
    hall ctx link 0 ms (.poll 100) t [.edit .applyDraft 200] (.ok ()) hissued hstale
  cases earlier with
  | nil =>
      cases hafter
      exact hchanged hsame
  | cons first earlier =>
      have hnil := (List.cons.inj hafter).2
      simp at hnil

end ViewFilters.Session
