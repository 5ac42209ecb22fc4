import Mathlib.Data.List.Induction
import ViewFilters.FetchGate

/-!
# ViewFilters.Proofs.FetchGate.Trace

A gate against the trace of all that was done with it, for any times in any order.
The trace of a gate with a quiet time of 100:

```
marked 50 1   polled 10 none   marked 120 2   polled 230 (some 2)   took 2
```

A trace *waits* when a mark came after its last firing, which is a poll that gave a
generation or a take.  The gate knows of its trace only how many marks there are,
whether it waits, and the time of the last mark if so (`Follows`).
-/

namespace ViewFilters.FetchGate

/-! ## traces -/

/-- What can be done with a gate. -/
inductive Call where
  | mark (now : Nat)
  | poll (now : Nat)
  | take

/-- What was done with a gate, and its answer. -/
inductive Occurrence where
  | marked (now generation : Nat)
  | polled (now : Nat) (answer : Option Nat)
  | took (generation : Nat)
  deriving DecidableEq

namespace Occurrence

/-- The time of a mark. -/
def markTime? : Occurrence → Option Nat
  | marked now _ => some now
  | _ => none

/-- Whether a generation was given out to be requested. -/
def fires : Occurrence → Bool
  | marked _ _ => false
  | polled _ answer => answer.isSome
  | took _ => true

end Occurrence

/-- The gate after a call, and what occurred. -/
def call (g : FetchGate) : Call → FetchGate × Occurrence
  | .mark now => (g.mark now, .marked now (g.mark now).generation)
  | .poll now => ((g.poll now).1, .polled now (g.poll now).2)
  | .take => (g.take.1, .took g.take.2)

/-- The gate after some calls. -/
def run (g : FetchGate) (calls : List Call) : FetchGate := calls.foldl (fun g c => (g.call c).1) g

/-- What occurs in some calls, in order. -/
def trace : FetchGate → List Call → List Occurrence
  | _, [] => []
  | g, c :: calls => (g.call c).2 :: trace (g.call c).1 calls

/-- The times of the marks of a trace, in order. -/
def markTimes (log : List Occurrence) : List Nat := log.filterMap Occurrence.markTime?

/-- A mark came after the last firing. -/
def Waits (log : List Occurrence) : Prop :=
  ∃ before now generation after, log = before ++ .marked now generation :: after ∧
    ∀ o ∈ after, o.fires = false

variable {g : FetchGate} {log : List Occurrence} {o : Occurrence}

/-! ### one more call -/

theorem run_append (g : FetchGate) (calls more : List Call) :
    g.run (calls ++ more) = (g.run calls).run more :=
  List.foldl_append

theorem trace_append (g : FetchGate) (calls more : List Call) :
    g.trace (calls ++ more) = g.trace calls ++ (g.run calls).trace more := by
  induction calls generalizing g with
  | nil => rfl
  | cons c calls ih => exact congrArg ((g.call c).2 :: ·) (ih (g.call c).1)

@[simp] theorem markTimes_append (log more : List Occurrence) :
    markTimes (log ++ more) = markTimes log ++ markTimes more :=
  List.filterMap_append

theorem not_waits_nil : ¬ Waits [] := by
  rintro ⟨before, now, generation, after, h, -⟩
  simp at h

theorem waits_concat_marked (log : List Occurrence) (now generation : Nat) :
    Waits (log ++ [.marked now generation]) :=
  ⟨log, now, generation, [], rfl, by simp⟩

/-- Only a mark makes a trace wait, and only a firing ends that. -/
theorem waits_concat_iff (h : o.markTime? = none) :
    Waits (log ++ [o]) ↔ o.fires = false ∧ Waits log := by
  constructor
  · rintro ⟨before, now, generation, after, heq, hafter⟩
    obtain rfl | ⟨after, last, rfl⟩ := after.eq_nil_or_concat
    · have ho : o = .marked now generation := by simpa using (List.append_inj' heq rfl).2
      simp [ho, Occurrence.markTime?] at h
    · rw [List.concat_eq_append, ← List.cons_append, ← List.append_assoc] at heq
      obtain ⟨hlog, hlast⟩ := List.append_inj' heq rfl
      have ho : o = last := by simpa using hlast
      simp only [List.concat_eq_append, List.mem_append, List.mem_singleton, or_imp,
        forall_and, forall_eq] at hafter
      exact ⟨ho ▸ hafter.2, before, now, generation, after, hlog, hafter.1⟩
  · rintro ⟨ho, before, now, generation, after, rfl, hafter⟩
    refine ⟨before, now, generation, after ++ [o], by simp, ?_⟩
    simpa [or_imp, forall_and, ho] using hafter

/-- A trace that waits did so before anything but marks was added to it. -/
theorem Waits.of_append {more : List Occurrence} (hm : markTimes more = [])
    (h : Waits (log ++ more)) : Waits log := by
  induction more using List.reverseRecOn with
  | nil => simpa using h
  | append_singleton more o ih =>
      rw [markTimes_append, List.append_eq_nil_iff] at hm
      have ho : o.markTime? = none := by simpa [markTimes] using hm.2
      rw [← List.append_assoc, waits_concat_iff ho] at h
      exact ih hm.1 h.2

/-- What occurred at a place of a trace is the answer to a call on the gate there. -/
theorem exists_call_of_trace_eq {calls : List Call} {before after : List Occurrence}
    (h : g.trace calls = before ++ o :: after) :
    ∃ done c rest, calls = done ++ c :: rest ∧ g.trace done = before ∧
      ((g.run done).call c).2 = o := by
  induction before generalizing g calls with
  | nil =>
      cases calls with
      | nil => simp [trace] at h
      | cons c calls => exact ⟨[], c, calls, rfl, rfl, (List.cons.inj h).1⟩
  | cons first before ih =>
      cases calls with
      | nil => simp [trace] at h
      | cons c calls =>
          obtain ⟨hfirst, hrest⟩ := List.cons.inj h
          obtain ⟨done, c', rest, rfl, hdone, ho⟩ := ih hrest
          exact ⟨c :: done, c', rest, rfl, by rw [trace, hfirst, hdone], ho⟩

/-! ## the gate and its trace -/

/-- All that a gate knows of its trace. -/
structure Follows (debounce : Nat) (log : List Occurrence) (g : FetchGate) : Prop where
  debounce : g.debounce = debounce
  generation : g.generation = (markTimes log).length
  pending : g.isPending = true ↔ Waits log
  since : ∀ time, g.since = some time → (markTimes log).getLast? = some time

variable {debounce : Nat}

theorem follows_new (debounce : Nat) : Follows debounce [] (new debounce) :=
  ⟨rfl, rfl, by simpa [isPending, new] using not_waits_nil, by simp [new]⟩

theorem Follows.mark (h : Follows debounce log g) (now : Nat) :
    Follows debounce (log ++ [.marked now (g.mark now).generation]) (g.mark now) where
  debounce := h.debounce
  generation := by simp [markTimes, Occurrence.markTime?, h.generation]
  pending := iff_of_true rfl (waits_concat_marked log now _)
  since := by simp [FetchGate.mark, markTimes, Occurrence.markTime?]

/-- An answer without a generation leaves the gate as it is. -/
theorem Follows.keep (h : Follows debounce log g) (now : Nat) :
    Follows debounce (log ++ [.polled now none]) g where
  debounce := h.debounce
  generation := by simp [markTimes, Occurrence.markTime?, h.generation]
  pending := by rw [h.pending, waits_concat_iff rfl]; simp [Occurrence.fires]
  since := by simpa [markTimes, Occurrence.markTime?] using h.since

theorem Follows.clear (h : Follows debounce log g) (hm : o.markTime? = none)
    (ho : o.fires = true) : Follows debounce (log ++ [o]) g.clear where
  debounce := h.debounce
  generation := by simp [markTimes, hm, h.generation]
  pending := by simp [waits_concat_iff hm, ho]
  since := by simp [FetchGate.clear]

theorem Follows.call (h : Follows debounce log g) (c : Call) :
    Follows debounce (log ++ [(g.call c).2]) (g.call c).1 := by
  cases c with
  | mark now => exact h.mark now
  | poll now =>
      rw [FetchGate.call]
      cases hdue : g.isDue now with
      | true =>
          rw [poll_of_isDue hdue]
          exact h.clear rfl rfl
      | false =>
          rw [poll_of_not_isDue hdue]
          exact h.keep now
  | take => exact h.clear rfl rfl

/-- A gate follows its trace, whatever is done with it. -/
theorem follows_run (debounce : Nat) (calls : List Call) :
    Follows debounce ((new debounce).trace calls) ((new debounce).run calls) := by
  induction calls using List.reverseRecOn with
  | nil => exact follows_new debounce
  | append_singleton calls c ih =>
      rw [trace_append, run_append]
      exact ih.call c

/-! ## what follows for single calls -/

/-- A poll gives a generation when the trace waits and the quiet time has passed. -/
theorem Follows.isDue_iff (h : Follows debounce log g) (now : Nat) :
    g.isDue now = true ↔
      Waits log ∧ ∃ last, (markTimes log).getLast? = some last ∧ debounce ≤ now - last := by
  rw [← h.pending, ← h.debounce, isDue, isPending]
  cases hs : g.since with
  | none => simp
  | some time => simp [h.since time hs]

/-- Marks alone change the generation, and they make it later. -/
theorem generation_le_run (g : FetchGate) (calls : List Call) :
    g.generation ≤ (g.run calls).generation := by
  induction calls generalizing g with
  | nil => exact Nat.le_refl _
  | cons c calls ih =>
      have hcall : g.generation ≤ (g.call c).1.generation := by
        cases c with
        | mark now => exact Nat.le_succ _
        | poll now => cases hdue : g.isDue now <;> simp [FetchGate.call, poll, hdue]
        | take => exact Nat.le_refl _
      exact Nat.le_trans hcall (ih (g.call c).1)

/-! ## the whole -/

/-- Between two polls that give a generation there is a mark. -/
theorem exists_mark_between {calls : List Call} {before between after : List Occurrence}
    {now now' n n' : Nat}
    (h : (new debounce).trace calls =
      before ++ .polled now (some n) :: between ++ .polled now' (some n') :: after) :
    markTimes between ≠ [] := by
  obtain ⟨done, c, rest, -, hdone, hanswer⟩ := exists_call_of_trace_eq h
  have hfollows := follows_run debounce done
  rw [hdone] at hfollows
  intro hnone
  cases c with
  | poll time =>
      have hdue : ((new debounce).run done).isDue time = true := by
        by_contra hdue
        simp [call, poll, hdue] at hanswer
      have hwaits := ((hfollows.isDue_iff time).1 hdue).1
      rw [← List.singleton_append, ← List.append_assoc] at hwaits
      -- the first of the two polls is the last firing, and no mark comes after it
      have hfired := (waits_concat_iff rfl).1 (hwaits.of_append hnone)
      exact absurd hfired.1 (by simp [Occurrence.fires])
  | mark time => simp [call] at hanswer
  | take => simp [call] at hanswer

/-- **Debounce and generations**: after any calls on a new gate, a poll gives a generation
exactly when a mark came after the last firing and the quiet time has passed since the last
mark; the generation is the number of marks.  Any other poll changes nothing.  A take gives
that number at once, and nothing waits after it.  Between two polls that give a generation
there is a mark, and the generation of a mark is current until the next one, and never again. -/
theorem debounced_generations (debounce : Nat) (calls : List Call) :
    let g := (new debounce).run calls
    let log := (new debounce).trace calls
    let marks := markTimes log
    (∀ now,
      ((g.poll now).2.isSome ↔
        Waits log ∧ ∃ last, marks.getLast? = some last ∧ debounce ≤ now - last) ∧
      (∀ n, (g.poll now).2 = some n → n = marks.length) ∧
      ((g.poll now).2 = none → (g.poll now).1 = g)) ∧
    (g.take.2 = marks.length ∧ g.take.1.isPending = false) ∧
    (∀ before now n between now' n' after,
      log = before ++ .polled now (some n) :: between ++ .polled now' (some n') :: after →
        markTimes between ≠ []) ∧
    (∀ before now n after, log = before ++ .marked now n :: after →
      n = (markTimes before).length + 1 ∧ (g.isCurrent n = true ↔ markTimes after = [])) ∧
    ∀ n, n < g.generation → ∀ more, (g.run more).isCurrent n = false := by
  intro g log marks
  have hg : Follows debounce log g := follows_run debounce calls
  refine ⟨fun now => ?_, ⟨hg.generation, rfl⟩, ?_, ?_, ?_⟩
  · rw [← hg.isDue_iff now]
    cases hdue : g.isDue now with
    | true => simp [poll_of_isDue hdue, hg.generation, marks]
    | false => simp [poll_of_not_isDue hdue]
  · intro before now n between now' n' after h
    exact exists_mark_between h
  · intro before now n after h
    obtain ⟨done, c, rest, -, hdone, hanswer⟩ := exists_call_of_trace_eq h
    have hbefore := (follows_run debounce done).generation
    rw [hdone] at hbefore
    have hn : n = (markTimes before).length + 1 := by
      cases c with
      | mark time => simp [call, hbefore] at hanswer; omega
      | poll time => simp [call] at hanswer
      | take => simp [call] at hanswer
    refine ⟨hn, ?_⟩
    have hlength : g.generation = n + (markTimes after).length := by
      rw [hg.generation, h, hn]
      simp [markTimes, Occurrence.markTime?]
      omega
    rw [isCurrent, hlength, decide_eq_true_iff, ← List.length_eq_zero_iff]
    omega
  · intro n hn more
    have hle := generation_le_run g more
    simp only [isCurrent, decide_eq_false_iff_not]
    omega

/-- A clock that goes backwards, a poll that gives nothing, and a take in between: the
poll after the second mark gives 2, and 1 is not current any more. -/
theorem debounced_generations_of_backwards :
    let calls : List Call :=
      [.mark 50, .poll 10, .mark 120, .poll 230, .take, .mark 40, .mark 30]
    let early : List Occurrence :=
      [.marked 50 1, .polled 10 none, .marked 120 2, .polled 230 (some 2), .took 2]
    let g := (new 100).run calls
    (new 100).trace calls = early ++ .marked 40 3 :: [.marked 30 4] ∧
      (g.poll 130).2.isSome ∧ (g.poll 129).2 = none ∧ (g.poll 129).1 = g ∧
      g.isCurrent 3 = false := by
  intro calls early g
  have htrace : (new 100).trace calls = early ++ .marked 40 3 :: [.marked 30 4] := by decide
  have hearly : (g.poll 129).2 = none := by decide
  obtain ⟨hpoll, -, -, hcurrent, -⟩ := debounced_generations 100 calls
  have hwaits : Waits ((new 100).trace calls) := by
    rw [htrace]
    exact waits_concat_marked (early ++ [.marked 40 3]) 30 4
  have hlast : (markTimes ((new 100).trace calls)).getLast? = some 30 := by decide
  have hthird := (hcurrent early 40 3 [.marked 30 4] htrace).2
  refine ⟨htrace, (hpoll 130).1.2 ⟨hwaits, 30, hlast, by decide⟩, hearly, (hpoll 129).2.2 hearly, ?_⟩
  rw [Bool.eq_false_iff, ne_eq, hthird]
  decide

end ViewFilters.FetchGate
