import ViewFilters.Config
import ViewFilters.Proofs.Editor.Frame

/-!
# ViewFilters.Proofs.Editor.Commute

Operations on different fields in either order.

What comes of an operation on a field depends on the filters in force only in so far as there
is one on this field, and an operation on another field does not change that.  So each of two
such operations fails or not, and goes to the first page or not, wherever it stands
(`error_iff_error`, `Intent.paginate_apply`).  The filters are the same too, with one exception:

```
first, then    present         both new
put, put       in place        the two last filters change places
put, remove    the same
remove, put    the same
```

The statement on editors is `different_fields_commute`.
-/

namespace ViewFilters

variable {ctx : Context} {policy : Policy} {s : Selection} {f g : String}

/-! ## the filters -/

/-- Effects on different fields can change places, unless both put a filter on a new field. -/
theorem Effect.apply_comm {x y : Effect} (hx : x.field? = some f) (hy : y.field? = some g)
    (hne : f ≠ g)
    (h : ∀ u w, x = .put u → y = .put w → f ∈ Selection.fields s ∨ g ∈ Selection.fields s) :
    y.apply policy (x.apply policy s) = x.apply policy (y.apply policy s) := by
  cases x with
  | clear => contradiction
  | put u =>
      obtain rfl : u.field = f := Option.some.inj hx
      cases y with
      | clear => contradiction
      | put w =>
          obtain rfl : w.field = g := Option.some.inj hy
          exact Selection.put_put_comm hne (h u w rfl rfl)
      | erase other =>
          obtain rfl : other = g := Option.some.inj hy
          exact Selection.without_put_of_ne (Ne.symm hne)
  | erase field =>
      obtain rfl : field = f := Option.some.inj hx
      cases y with
      | clear => contradiction
      | put w =>
          obtain rfl : w.field = g := Option.some.inj hy
          exact (Selection.without_put_of_ne hne).symm
      | erase other => exact Selection.without_without_comm s field other

namespace Intent

variable {i j : Intent}

theorem concerns_eq_false (hi : i.field? = some f) (hne : f ≠ g) : i.concerns g = false := by
  simp [concerns, hi, hne]

/-- An intent leaves the filter on another field as it is. -/
theorem on?_apply_of_ne (hi : i.field? = some f) (hne : f ≠ g) :
    Selection.on? (i.apply ctx s) g = Selection.on? s g := by
  rw [on?_apply, onField_of_not_concerns (concerns_eq_false hi hne)]

theorem apply_comm (hi : i.field? = some f) (hj : j.field? = some g) (hne : f ≠ g)
    (h : ∀ u w, i.Puts ctx u → j.Puts ctx w → f ∈ Selection.fields s ∨ g ∈ Selection.fields s) :
    j.apply ctx (i.apply ctx s) = i.apply ctx (j.apply ctx s) := by
  cases hx : i.effect? ctx with
  | none => rw [apply_of_none hx, apply_of_none hx]
  | some x =>
      cases hy : j.effect? ctx with
      | none => rw [apply_of_none hy, apply_of_none hy]
      | some y =>
          rw [apply_of_some hx, apply_of_some hx, apply_of_some hy, apply_of_some hy]
          refine Effect.apply_comm ((field?_of_effect? hx).trans hi)
            ((field?_of_effect? hy).trans hj) hne fun u w hu hw => ?_
          rw [hu] at hx
          rw [hw] at hy
          exact h u w hx hy

/-- The filter on each field is the same in either order. -/
theorem on?_apply_comm (hi : i.field? = some f) (hj : j.field? = some g) (hne : f ≠ g)
    (field : String) :
    Selection.on? (j.apply ctx (i.apply ctx s)) field =
      Selection.on? (i.apply ctx (j.apply ctx s)) field := by
  by_cases h : f = field
  · have hg : g ≠ field := h ▸ Ne.symm hne
    rw [on?_apply_of_ne hj hg, on?_apply i (j.apply ctx s), on?_apply_of_ne hj hg, on?_apply]
  · rw [on?_apply_of_ne hi h, on?_apply j (i.apply ctx s), on?_apply_of_ne hi h, on?_apply]

theorem Puts.field_eq {u : Filter} (hu : i.Puts ctx u) (hi : i.field? = some f) : u.field = f :=
  Option.some.inj ((field?_of_effect? hu).trans hi)

theorem Puts.apply_eq {u : Filter} (hu : i.Puts ctx u) (s : Selection) :
    i.apply ctx s = Selection.put s u :=
  apply_of_some hu s

/-- A field that had no filter has one when the intent puts one there. -/
theorem on?_apply_ne_none_iff (hi : i.field? = some f) (hnone : Selection.on? s f = none) :
    Selection.on? (i.apply ctx s) f ≠ none ↔ ∃ u, i.Puts ctx u := by
  rw [on?_apply, hnone]
  constructor
  · intro h
    obtain ⟨u, hu⟩ := Option.ne_none_iff_exists'.1 h
    obtain ⟨hput, -⟩ | ⟨hsome, -⟩ := onField_eq_some_iff.1 hu
    · exact ⟨u, hput⟩
    · contradiction
  · rintro ⟨u, hu⟩
    rw [onField_eq_some_iff.2 (Or.inl ⟨hu, hu.field_eq hi⟩)]
    exact Option.some_ne_none u

/-- The intents put filters on two fields that had none. -/
def BothArrive (ctx : Context) (s : Selection) (f g : String) (i j : Intent) : Prop :=
  Selection.on? s f = none ∧ Selection.on? s g = none ∧
    Selection.on? (i.apply ctx s) f ≠ none ∧ Selection.on? (j.apply ctx s) g ≠ none

theorem apply_comm_of_not_bothArrive (hi : i.field? = some f) (hj : j.field? = some g)
    (hne : f ≠ g) (h : ¬ BothArrive ctx s f g i j) :
    j.apply ctx (i.apply ctx s) = i.apply ctx (j.apply ctx s) := by
  apply apply_comm hi hj hne
  intro u w hu hw
  apply Classical.byContradiction
  intro hnew
  obtain ⟨hnewf, hnewg⟩ := not_or.1 hnew
  have hf : Selection.on? s f = none := Selection.on?_eq_none_iff.2 hnewf
  have hg : Selection.on? s g = none := Selection.on?_eq_none_iff.2 hnewg
  have hatf := (on?_apply_ne_none_iff hi hf).2 ⟨u, hu⟩
  have hatg := (on?_apply_ne_none_iff hj hg).2 ⟨w, hw⟩
  exact h ⟨hf, hg, hatf, hatg⟩

/-- Two new filters stand in the order in which they were put in. -/
theorem BothArrive.apply_eq (h : BothArrive ctx s f g i j) (hi : i.field? = some f)
    (hj : j.field? = some g) (hne : f ≠ g) :
    ∃ u w, u.field = f ∧ w.field = g ∧ j.apply ctx (i.apply ctx s) = s ++ [u, w] ∧
      i.apply ctx (j.apply ctx s) = s ++ [w, u] := by
  obtain ⟨hf, hg, hatf, hatg⟩ := h
  obtain ⟨u, hu⟩ := (on?_apply_ne_none_iff hi hf).1 hatf
  obtain ⟨w, hw⟩ := (on?_apply_ne_none_iff hj hg).1 hatg
  obtain rfl := hu.field_eq hi
  obtain rfl := hw.field_eq hj
  have hnewu := Selection.on?_eq_none_iff.1 hf
  have hneww := Selection.on?_eq_none_iff.1 hg
  have hij : j.apply ctx (i.apply ctx s) = s ++ [u, w] := by
    rw [hw.apply_eq, hu.apply_eq, Selection.put_put_of_notMem hne hnewu hneww]
  have hji : i.apply ctx (j.apply ctx s) = s ++ [w, u] := by
    rw [hu.apply_eq, hw.apply_eq, Selection.put_put_of_notMem (Ne.symm hne) hneww hnewu]
  exact ⟨u, w, rfl, rfl, hij, hji⟩

end Intent

/-! ## the page -/

namespace Effect

/-- There is something for the effect to do: it puts a filter, clears everything, or takes away
a filter that is there. -/
def acts : Effect → Selection → Bool
  | .put _, _ | .clear, _ => true
  | .erase field, s => (Selection.on? s field).isSome

/-- The pagination after an effect. -/
def paginate (x : Effect) (s : Selection) (p : Pagination) : Pagination :=
  if x.acts s then { p with page := 1 } else p

theorem paginate_comm (x y : Effect) (s t : Selection) (p : Pagination) :
    y.paginate t (x.paginate s p) = x.paginate s (y.paginate t p) := by
  unfold paginate
  split <;> split <;> rfl

end Effect

namespace Intent

variable {i j : Intent} {p : Pagination} {x : Effect}

/-- The pagination after an intent is carried out. -/
def paginate (ctx : Context) (i : Intent) (s : Selection) (p : Pagination) : Pagination :=
  (i.effect? ctx).elim p fun x => x.paginate s p

theorem paginate_of_none (h : i.effect? ctx = none) : i.paginate ctx s p = p := by
  rw [paginate, h, Option.elim_none]

theorem paginate_of_some (h : i.effect? ctx = some x) :
    i.paginate ctx s p = x.paginate s p := by
  rw [paginate, h, Option.elim_some]

/-- What an intent on another field did to the filters does not matter for the page. -/
theorem paginate_apply (hi : i.field? = some f) (hj : j.field? = some g) (hne : f ≠ g) :
    j.paginate ctx (i.apply ctx s) p = j.paginate ctx s p := by
  cases hy : j.effect? ctx with
  | none => rw [paginate_of_none hy, paginate_of_none hy]
  | some y =>
      rw [paginate_of_some hy, paginate_of_some hy]
      cases y with
      | put | clear => rfl
      | erase field =>
          obtain rfl : field = g := Option.some.inj ((field?_of_effect? hy).trans hj)
          rw [Effect.paginate, Effect.paginate, Effect.acts, Effect.acts, on?_apply_of_ne hi hne]

theorem paginate_comm (hi : i.field? = some f) (hj : j.field? = some g) (hne : f ≠ g) :
    j.paginate ctx (i.apply ctx s) (i.paginate ctx s p) =
      i.paginate ctx (j.apply ctx s) (j.paginate ctx s p) := by
  rw [paginate_apply hi hj hne, paginate_apply hj hi (Ne.symm hne)]
  cases hx : i.effect? ctx with
  | none => rw [paginate_of_none hx, paginate_of_none hx]
  | some x =>
      cases hy : j.effect? ctx with
      | none => rw [paginate_of_none hy, paginate_of_none hy]
      | some y =>
          rw [paginate_of_some hx, paginate_of_some hy, paginate_of_some hy, paginate_of_some hx,
            Effect.paginate_comm]

end Intent

/-! ## operations -/

namespace Editor

variable {e : Editor} {a : Action} {i : Intent}

/-- An operation on a field asks for the same whatever the editor. -/
theorem exists_intent (ha : a.field? = some f) :
    ∃ i : Intent, i.field? = some f ∧ ∀ e : Editor, e.intent? a = some i := by
  cases a with
  | update field op value => exact ⟨.update field op value, ha, fun _ => rfl⟩
  | updateNamed field name raw => exact ⟨.update field _ _, ha, fun _ => rfl⟩
  | remove field => exact ⟨.remove field, ha, fun _ => rfl⟩
  | clearAll | setPage | setPageSize => contradiction
  | setDraftField | setDraftOperator | setDraftValue | applyDraft => contradiction

theorem pagination_remove (ctx : Context) (e : Editor) (field : String) :
    (e.remove ctx field).state.criteria.pagination =
      (Intent.remove field).paginate ctx e.criteria.filters e.criteria.pagination := by
  unfold remove
  split
  · next hp => rw [Intent.paginate_of_none (Intent.effect?_remove_of_protected hp)]
  · next hp =>
    rw [Intent.paginate_of_some (Intent.effect?_remove hp), Effect.paginate, Effect.acts]
    split
    · next hon =>
      have hnone : Selection.on? e.criteria.filters field = none := hon
      rw [hnone]
      rfl
    · next u hon =>
      have hsome : Selection.on? e.criteria.filters field = some u := hon
      rw [hsome, criteria_settle]
      rfl

theorem pagination_update (ctx : Context) (e : Editor) (field : String) (op : Operator)
    (value : Option Value) :
    (e.update ctx field op value).state.criteria.pagination =
      (Intent.update field op value).paginate ctx e.criteria.filters e.criteria.pagination := by
  unfold update
  split
  · next hnone =>
    rw [Step.state_map, pagination_remove, Intent.paginate, Intent.paginate,
      Intent.effect?_update_of_none hnone]
  · next v hv =>
    split
    · next err hb => rw [Intent.paginate_of_none (Intent.effect?_update_of_error hv hb)]
    · next u hb =>
      rw [Intent.paginate_of_some (Intent.effect?_update_of_ok hv hb), Step.state_map,
        criteria_settle]
      rfl

/-- The pagination after an operation on a field is what its intent makes of it. -/
theorem pagination_perform (ha : a.field? = some f) (hi : e.intent? a = some i) :
    (e.perform ctx a).state.criteria.pagination =
      i.paginate ctx e.criteria.filters e.criteria.pagination := by
  cases a with
  | update field op value =>
      rw [← Option.some.inj hi]
      exact pagination_update ctx e field op value
  | updateNamed field name raw =>
      rw [← Option.some.inj hi]
      exact pagination_update ctx e field _ _
  | remove field =>
      rw [← Option.some.inj hi]
      exact pagination_remove ctx e field
  | clearAll | setPage | setPageSize => contradiction
  | setDraftField | setDraftOperator | setDraftValue | applyDraft => contradiction

/-- An operation on the criteria fails whatever is in force, and for the same reason. -/
theorem error_iff_error (h : a.IsDirect) (e e' : Editor) {err : FilterError} :
    (e.perform ctx a).result = .error err ↔ (e'.perform ctx a).result = .error err := by
  cases a with
  | update field op value =>
      exact result_update_eq_error_iff.trans result_update_eq_error_iff.symm
  | updateNamed field name raw =>
      exact result_update_eq_error_iff.trans result_update_eq_error_iff.symm
  | remove | clearAll | setPage | setPageSize =>
      exact iff_of_false (fun h => by contradiction) (fun h => by contradiction)
  | setDraftField | setDraftOperator | setDraftValue | applyDraft => contradiction

theorem isDirect_of_field? (ha : a.field? = some f) : a.IsDirect := by
  cases a with
  | update | updateNamed | remove => trivial
  | clearAll | setPage | setPageSize => contradiction
  | setDraftField | setDraftOperator | setDraftValue | applyDraft => contradiction

/-! ## the whole -/

/-- **Different fields**: of two operations that put or remove filters on different fields, each
fails or not, and for the same reason, in either order; the filter on each field and the
pagination are the same in the end.  The filters and the link are so too, unless both fields
were without a filter and both have one in the end: then the two last filters change places. -/
theorem different_fields_commute (ctx : Context) (e : Editor) {a b : Action} {f g : String}
    (ha : a.field? = some f) (hb : b.field? = some g) (hne : f ≠ g) :
    let ab := (e.perform ctx a).state.perform ctx b
    let ba := (e.perform ctx b).state.perform ctx a
    let bothArrive := e.criteria.on? f = none ∧ e.criteria.on? g = none ∧
      ab.state.criteria.on? f ≠ none ∧ ab.state.criteria.on? g ≠ none
    (∀ err, (e.perform ctx a).result = .error err ↔ ba.result = .error err) ∧
    (∀ err, (e.perform ctx b).result = .error err ↔ ab.result = .error err) ∧
    (∀ field, ab.state.criteria.on? field = ba.state.criteria.on? field) ∧
    ab.state.criteria.pagination = ba.state.criteria.pagination ∧
    (¬ bothArrive → ab.state.criteria.filters = ba.state.criteria.filters ∧
      ab.state.query ctx = ba.state.query ctx) ∧
    (bothArrive → ∃ x y, x.field = f ∧ y.field = g ∧
      ab.state.criteria.filters = e.criteria.filters ++ [x, y] ∧
      ba.state.criteria.filters = e.criteria.filters ++ [y, x]) := by
  intro ab ba bothArrive
  obtain ⟨i, hi, hasked⟩ := exists_intent ha
  obtain ⟨j, hj, hasked'⟩ := exists_intent hb
  have hab : ab.state.criteria.filters = j.apply ctx (i.apply ctx e.criteria.filters) := by
    simp only [ab, filters_perform, hasked, hasked', Option.elim_some]
  have hba : ba.state.criteria.filters = i.apply ctx (j.apply ctx e.criteria.filters) := by
    simp only [ba, filters_perform, hasked, hasked', Option.elim_some]
  have hpagination : ab.state.criteria.pagination = ba.state.criteria.pagination := by
    simp only [ab, ba, pagination_perform ha (hasked _), pagination_perform hb (hasked' _),
      filters_perform, hasked, hasked', Option.elim_some]
    exact Intent.paginate_comm hi hj hne
  have honf : ab.state.criteria.on? f = Selection.on? (i.apply ctx e.criteria.filters) f := by
    rw [Criteria.on?, hab, Intent.on?_apply_of_ne hj (Ne.symm hne)]
  have hong : ab.state.criteria.on? g = Selection.on? (j.apply ctx e.criteria.filters) g := by
    rw [Criteria.on?, hab, Intent.on?_apply_comm hi hj hne, Intent.on?_apply_of_ne hi hne]
  have harrive : bothArrive ↔ Intent.BothArrive ctx e.criteria.filters f g i j := by
    rw [Intent.BothArrive, ← honf, ← hong]
    rfl
  refine ⟨fun err => error_iff_error (isDirect_of_field? ha) _ _,
    fun err => error_iff_error (isDirect_of_field? hb) _ _, ?_, hpagination, ?_, ?_⟩
  · intro field
    rw [Criteria.on?, Criteria.on?, hab, hba]
    exact Intent.on?_apply_comm hi hj hne field
  · intro hnot
    have hfilters : ab.state.criteria.filters = ba.state.criteria.filters := by
      rw [hab, hba]
      exact Intent.apply_comm_of_not_bothArrive hi hj hne (mt harrive.2 hnot)
    have hcriteria : ab.state.criteria = ba.state.criteria := by
      rw [Criteria.mk.injEq]
      exact ⟨hfilters, hpagination⟩
    exact ⟨hfilters, congrArg (Criteria.query · ctx.policy) hcriteria⟩
  · intro hboth
    rw [hab, hba]
    exact (harrive.1 hboth).apply_eq hi hj hne

/-- Two new filters change places; a filter that is in force stays where it is. -/
theorem different_fields_commute_of_new :
    let ctx := Config.standard.context
    let e := (mount ctx (History.start "?environment=prod&page=3")).1
    let a : Action := .update "result" .eq (some (.text "pass"))
    let b : Action := .updateNamed "id" "gt" (some "5")
    let c : Action := .updateNamed "environment" "ne" (some "dev")
    let ab := (e.perform ctx a).state.perform ctx b
    let ba := (e.perform ctx b).state.perform ctx a
    let ac := (e.perform ctx a).state.perform ctx c
    let ca := (e.perform ctx c).state.perform ctx a
    a.field? = some "result" ∧ b.field? = some "id" ∧ c.field? = some "environment" ∧
      ab.state.criteria.pagination = ba.state.criteria.pagination ∧
      (∃ x y, x.field = "result" ∧ y.field = "id" ∧
        ab.state.criteria.filters = e.criteria.filters ++ [x, y] ∧
        ba.state.criteria.filters = e.criteria.filters ++ [y, x]) ∧
      ac.state.query ctx = ca.state.query ctx := by
  -- the results stay written out, so that they are compared as they stand
  intro ctx e a b c
  have hpresent : e.criteria.on? "environment" ≠ none := by decide +kernel
  obtain ⟨-, -, -, hpagination, -, hswapped⟩ :=
    different_fields_commute ctx e (a := a) (b := b) rfl rfl (f := "result") (g := "id") (by decide)
  have hswapped := hswapped (by decide +kernel)
  obtain ⟨-, -, -, -, hsame, -⟩ :=
    different_fields_commute ctx e (a := a) (b := c) rfl rfl (f := "result") (g := "environment")
      (by decide)
  have hquery := (hsame fun h => hpresent h.2.1).2
  exact ⟨rfl, rfl, rfl, hpagination, hswapped, hquery⟩

end Editor

end ViewFilters
