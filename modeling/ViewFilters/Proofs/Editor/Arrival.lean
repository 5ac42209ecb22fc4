import Mathlib.Data.List.Induction
import Mathlib.Data.Nat.Find
import ViewFilters.Config
import ViewFilters.Proofs.Editor.Intent

/-!
# ViewFilters.Proofs.Editor.Arrival

The order of an editor's filters.  A field arrives with the operation after which
it has a filter and before which it had none; one that goes and comes back arrives
again (`arrival`).

```
update a   update b   remove a   update a      arrivals: b at 2, a at 4
```

After any run the filters stand in the order in which their fields last arrived
(`pairwise_arrival`).  Together with what the filter on each field is, this makes the
filters a map that remembers the order of insertion (`run_refines_ordered_map`).
-/

namespace ViewFilters

variable {ctx : Context} {policy : Policy} {field : String} {s : Selection}

/-! ## fields after an effect -/

/-- An effect takes some fields out or adds a new one at the end. -/
theorem Effect.fields_apply_cases (x : Effect) (s : Selection) :
    (Selection.fields (x.apply policy s)).Sublist (Selection.fields s) ∨
      ∃ field, field ∉ Selection.fields s ∧
        Selection.fields (x.apply policy s) = Selection.fields s ++ [field] := by
  cases x with
  | put f =>
      by_cases hf : f.field ∈ Selection.fields s
      · rw [apply, Selection.fields_put_of_mem hf]
        exact Or.inl (List.Sublist.refl _)
      · refine Or.inr ⟨f.field, hf, ?_⟩
        rw [apply, Selection.fields_put, if_neg hf]
  | erase other => exact Or.inl (Selection.fields_filter_sublist s _)
  | clear => exact Or.inl (Selection.fields_filter_sublist s _)

/-- An effect on a field leaves the filters on other fields, and their order. -/
theorem Effect.without_apply {x : Effect} (h : x.field? = some field) (s : Selection) :
    Selection.without (x.apply policy s) field = Selection.without s field := by
  cases x with
  | put f =>
      obtain rfl : f.field = field := Option.some.inj h
      exact Selection.without_put_self s f
  | erase other =>
      obtain rfl : other = field := Option.some.inj h
      exact Selection.without_without_self s other
  | clear => contradiction

/-- An effect on a field that is filtered on before and after leaves all fields in place. -/
theorem Effect.fields_apply_of_mem {x : Effect} (h : x.field? = some field)
    (hbefore : field ∈ Selection.fields s) (hafter : field ∈ Selection.fields (x.apply policy s)) :
    Selection.fields (x.apply policy s) = Selection.fields s := by
  cases x with
  | put f =>
      obtain rfl : f.field = field := Option.some.inj h
      exact Selection.fields_put_of_mem hbefore
  | erase other =>
      obtain rfl : other = field := Option.some.inj h
      rw [apply, Selection.fields_without] at hafter
      simp at hafter
  | clear => contradiction

namespace Intent

variable {i : Intent}

theorem without_apply (h : i.field? = some field) (s : Selection) :
    Selection.without (i.apply ctx s) field = Selection.without s field := by
  cases hx : i.effect? ctx with
  | none => rw [apply_of_none hx]
  | some x => rw [apply_of_some hx, Effect.without_apply ((field?_of_effect? hx).trans h)]

theorem fields_apply_of_mem (h : i.field? = some field) (hbefore : field ∈ Selection.fields s)
    (hafter : field ∈ Selection.fields (i.apply ctx s)) :
    Selection.fields (i.apply ctx s) = Selection.fields s := by
  cases hx : i.effect? ctx with
  | none => rw [apply_of_none hx]
  | some x =>
      rw [apply_of_some hx] at hafter ⊢
      exact Effect.fields_apply_of_mem ((field?_of_effect? hx).trans h) hbefore hafter

end Intent

namespace Editor

variable {e : Editor} {as : List Action}

/-! ## arrivals -/

/-- The number of the last operation of a run before which a field had no filter.
Operations count from one; a field that always had a filter has the number zero. -/
def arrival (ctx : Context) (e : Editor) (as : List Action) (field : String) : Nat :=
  Nat.findGreatest (fun n => (e.run ctx (as.take (n - 1))).criteria.on? field = none) as.length

theorem arrival_le (ctx : Context) (e : Editor) (as : List Action) (field : String) :
    e.arrival ctx as field ≤ as.length :=
  Nat.findGreatest_le _

/-- One more operation is the arrival of a field that has no filter before it. -/
theorem arrival_concat (ctx : Context) (e : Editor) (as : List Action) (a : Action)
    (field : String) :
    e.arrival ctx (as ++ [a]) field =
      if (e.run ctx as).criteria.on? field = none then as.length + 1
      else e.arrival ctx as field := by
  have hearlier : ∀ n ≤ as.length,
      Nat.findGreatest
          (fun n => (e.run ctx ((as ++ [a]).take (n - 1))).criteria.on? field = none) n =
        Nat.findGreatest (fun n => (e.run ctx (as.take (n - 1))).criteria.on? field = none) n := by
    intro n hn
    induction n with
    | zero => rfl
    | succ n ih =>
        rw [Nat.findGreatest_succ, Nat.findGreatest_succ, ih (by omega),
          List.take_append_of_le_length (by omega)]
  rw [arrival, List.length_append, List.length_singleton, Nat.findGreatest_succ,
    hearlier _ (Nat.le_refl _), Nat.add_sub_cancel, List.take_left]
  rfl

/-- Before the operation with which it arrived a field had no filter. -/
theorem on?_of_arrival {n : Nat} (h : e.arrival ctx as field = n + 1) :
    (e.run ctx (as.take n)).criteria.on? field = none :=
  Nat.findGreatest_of_ne_zero h (Nat.succ_ne_zero n)

/-- From its arrival on a field has a filter. -/
theorem on?_of_arrival_le {n : Nat} (hon : (e.run ctx as).criteria.on? field ≠ none)
    (h : e.arrival ctx as field ≤ n) (hn : n ≤ as.length) :
    (e.run ctx (as.take n)).criteria.on? field ≠ none := by
  obtain rfl | hlt := Nat.eq_or_lt_of_le hn
  · rwa [List.take_length]
  · exact Nat.findGreatest_is_greatest (Nat.lt_succ_of_le h) hlt

/-! ## the order -/

/-- An operation takes the filters on some fields out or adds one on a new field at the end. -/
theorem fields_perform_cases (ctx : Context) (e : Editor) (a : Action) :
    (Selection.fields (e.perform ctx a).state.criteria.filters).Sublist
        (Selection.fields e.criteria.filters) ∨
      ∃ field, field ∉ Selection.fields e.criteria.filters ∧
        Selection.fields (e.perform ctx a).state.criteria.filters =
          Selection.fields e.criteria.filters ++ [field] := by
  rw [filters_perform]
  cases e.intent? a with
  | none => exact Or.inl (List.Sublist.refl _)
  | some i =>
      rw [Option.elim_some]
      cases hx : i.effect? ctx with
      | none =>
          rw [Intent.apply_of_none hx]
          exact Or.inl (List.Sublist.refl _)
      | some x =>
          rw [Intent.apply_of_some hx]
          exact x.fields_apply_cases _

/-- Of two fields the first arrived before the second, or both had a filter all the time
and stood in this order from the start. -/
def Precedes (ctx : Context) (e : Editor) (as : List Action) (field other : String) : Prop :=
  e.arrival ctx as field < e.arrival ctx as other ∨
    (e.arrival ctx as field = 0 ∧ e.arrival ctx as other = 0 ∧
      [field, other].Sublist (Selection.fields e.criteria.filters))

/-- **Order**: after a run the filters stand in the order in which their fields last arrived. -/
theorem pairwise_arrival (ctx : Context) (e : Editor) (as : List Action) :
    (Selection.fields (e.run ctx as).criteria.filters).Pairwise (Precedes ctx e as) := by
  induction as using List.reverseRecOn with
  | nil =>
      rw [List.pairwise_iff_forall_sublist]
      exact fun hsub => Or.inr ⟨rfl, rfl, hsub⟩
  | append_singleton as a ih =>
      -- a field that is filtered on before the last operation does not arrive with it
      have hsame : ∀ field ∈ Selection.fields (e.run ctx as).criteria.filters,
          e.arrival ctx (as ++ [a]) field = e.arrival ctx as field := by
        intro field hfield
        rw [arrival_concat, if_neg]
        exact fun hnone => Criteria.on?_eq_none_iff.1 hnone hfield
      have hkept : (Selection.fields (e.run ctx as).criteria.filters).Pairwise
          (Precedes ctx e (as ++ [a])) := by
        refine ih.imp_of_mem fun {field other} hfield hother h => ?_
        rwa [Precedes, hsame field hfield, hsame other hother]
      rw [run_append]
      obtain hsub | ⟨field, hnew, hfields⟩ := (e.run ctx as).fields_perform_cases ctx a
      · exact hkept.sublist hsub
      · rw [run, run_nil, hfields, List.pairwise_append]
        refine ⟨hkept, List.pairwise_singleton _ _, fun other hother last hlast => Or.inl ?_⟩
        obtain rfl := List.mem_singleton.1 hlast
        rw [hsame other hother, arrival_concat, if_pos (Criteria.on?_eq_none_iff.2 hnew)]
        exact Nat.lt_succ_of_le (arrival_le ctx e as other)

/-! ## the whole -/

/-- The filters of an editor after a run, and after one or two more operations, as a
map from fields to filters that remembers the order of insertion. -/
structure RefinesOrderedMap (ctx : Context) (e : Editor) (as : List Action) : Prop where
  /-- The filter on a field depends on the first one and on the intents that concern the
  field, so that these are all that two runs have to share. -/
  depends : ∀ field (e' : Editor) as', e'.criteria.on? field = e.criteria.on? field →
    (e'.intents ctx as').filter (·.concerns field) =
      (e.intents ctx as).filter (·.concerns field) →
    (e'.run ctx as').criteria.on? field = (e.run ctx as).criteria.on? field
  /-- It is the one that was put there last, or the first one, unless it was erased since. -/
  content : ∀ field f, (e.run ctx as).criteria.on? field = some f ↔
    Intent.LastPuts ctx field f (e.intents ctx as) ∨
      (e.criteria.on? field = some f ∧ ∀ i ∈ e.intents ctx as, ¬ i.Decides ctx field)
  /-- A field that has a filter had none right before it arrived and one ever since. -/
  arrived : ∀ field, (e.run ctx as).criteria.on? field ≠ none →
    (∀ n, e.arrival ctx as field = n + 1 →
      (e.run ctx (as.take n)).criteria.on? field = none) ∧
    ∀ n, e.arrival ctx as field ≤ n → n ≤ as.length →
      (e.run ctx (as.take n)).criteria.on? field ≠ none
  /-- The filters stand in the order in which their fields arrived. -/
  ordered : (Selection.fields (e.run ctx as).criteria.filters).Pairwise (Precedes ctx e as)
  /-- An operation on a field leaves the filters on other fields, and their order. -/
  others : ∀ field a i, (e.run ctx as).intent? a = some i → i.field? = some field →
    (e.run ctx (as ++ [a])).criteria.filters.filter (·.field ≠ field) =
      (e.run ctx as).criteria.filters.filter (·.field ≠ field)
  /-- An operation on a field that has a filter before and after leaves all fields in place. -/
  replaced : ∀ field a i, (e.run ctx as).intent? a = some i → i.field? = some field →
    (e.run ctx as).criteria.on? field ≠ none →
    (e.run ctx (as ++ [a])).criteria.on? field ≠ none →
    Selection.fields (e.run ctx (as ++ [a])).criteria.filters =
      Selection.fields (e.run ctx as).criteria.filters
  /-- A filter on a new field that is not protected is put in and removed without a trace. -/
  undone : ∀ field a b i, (e.run ctx as).intent? a = some i → i.field? = some field →
    (e.run ctx as).criteria.on? field = none → ctx.policy.isProtected field = false →
    (e.run ctx (as ++ [a])).AsksToRemove b field →
    (e.run ctx (as ++ [a] ++ [b])).criteria.filters = (e.run ctx as).criteria.filters

/-- **Ordered map**: from any editor and after any run. -/
theorem run_refines_ordered_map (ctx : Context) (e : Editor) (as : List Action) :
    RefinesOrderedMap ctx e as where
  depends field e' as' hfirst hintents := by
    rw [on?_run, on?_run, hfirst, hintents]
  content field f := on?_run_eq_some_iff
  arrived field hon :=
    ⟨fun n hn => on?_of_arrival hn, fun n hle hn => on?_of_arrival_le hon hle hn⟩
  ordered := pairwise_arrival ctx e as
  others field a i ha hi := by
    rw [run_concat, filters_perform, ha]
    exact Intent.without_apply hi _
  replaced field a i ha hi hbefore hafter := by
    have hb : field ∈ Selection.fields (e.run ctx as).criteria.filters :=
      Classical.not_not.1 (mt Criteria.on?_eq_none_iff.2 hbefore)
    have hmem : field ∈ Selection.fields (e.run ctx (as ++ [a])).criteria.filters :=
      Classical.not_not.1 (mt Criteria.on?_eq_none_iff.2 hafter)
    rw [run_concat, filters_perform, ha] at hmem ⊢
    exact Intent.fields_apply_of_mem hi hb hmem
  undone field a b i ha hi hnone hp hb := by
    rw [run_concat, filters_of_asksToRemove hb hp, run_concat, filters_perform, ha]
    exact (Intent.without_apply hi _).trans
      (Selection.without_of_notMem (Criteria.on?_eq_none_iff.1 hnone))

/-- A field that goes and comes back is behind one that arrived in between. -/
theorem run_refines_ordered_map_of_return :
    let ctx := Config.standard.context
    let e := blank ctx (History.start "")
    let as : List Action := [.update "component" .eq (some (.text "ui")),
      .update "branch" .eq (some (.text "main")), .remove "component", .setPage 2,
      .update "component" .eq (some (.text "api"))]
    Selection.fields (e.run ctx as).criteria.filters = ["branch", "component"] ∧
      e.arrival ctx as "branch" = 2 ∧ e.arrival ctx as "component" = 5 ∧
      Precedes ctx e as "branch" "component" := by
  intro ctx e as
  have hfields : Selection.fields (e.run ctx as).criteria.filters = ["branch", "component"] := by
    decide +kernel
  have hordered := (run_refines_ordered_map ctx e as).ordered
  rw [hfields] at hordered
  exact ⟨hfields, by decide +kernel, by decide +kernel,
    List.rel_of_pairwise_cons hordered List.mem_cons_self⟩

end Editor

end ViewFilters
