import ViewFilters.Criteria
import ViewFilters.Proofs.Filter.Valid

/-!
# ViewFilters.Proofs.Criteria.Selection

The invariant of a selection, `Selection.Valid`: one filter per field, and each
of them valid.  Putting a valid filter in, taking a filter out and keeping only
some of them preserve it.
-/

namespace ViewFilters

namespace Selection

/-! ## membership -/

theorem mem_put {s : Selection} {f g : Filter} (h : g ∈ put s f) : g = f ∨ g ∈ s := by
  induction s with
  | nil => exact Or.inl (List.mem_singleton.1 h)
  | cons x s ih =>
      simp only [put] at h
      split at h
      · obtain h | h := List.mem_cons.1 h
        · exact Or.inl h
        · exact Or.inr (List.mem_cons_of_mem x h)
      · obtain h | h := List.mem_cons.1 h
        · exact Or.inr (h ▸ List.mem_cons_self)
        · exact (ih h).imp_right (List.mem_cons_of_mem x)

theorem mem_of_mem_without {s : Selection} {field : String} {g : Filter}
    (h : g ∈ without s field) : g ∈ s :=
  (List.mem_filter.1 h).1

/-- A field is filtered on when it is one of the selection's fields. -/
theorem on?_eq_none_iff {s : Selection} {field : String} :
    on? s field = none ↔ field ∉ fields s := by
  simp only [on?, List.find?_eq_none, fields, List.mem_map, not_exists, not_and, decide_eq_true_eq]

/-! ## fields in order -/

@[simp] theorem fields_nil : fields [] = [] := rfl

@[simp] theorem fields_cons (f : Filter) (s : Selection) :
    fields (f :: s) = f.field :: fields s := rfl

@[simp] theorem fields_append (s t : Selection) : fields (s ++ t) = fields s ++ fields t :=
  List.map_append

/-- A filter on a new field goes to the end. -/
theorem put_of_notMem {s : Selection} {f : Filter} (h : f.field ∉ fields s) :
    put s f = s ++ [f] := by
  induction s with
  | nil => rfl
  | cons g s ih =>
      rw [fields_cons, List.mem_cons, not_or] at h
      rw [put, if_neg (Ne.symm h.1), ih h.2, List.cons_append]

/-- A filter on a known field takes the place of the old one. -/
theorem fields_put_of_mem {s : Selection} {f : Filter} (h : f.field ∈ fields s) :
    fields (put s f) = fields s := by
  induction s with
  | nil => contradiction
  | cons g s ih =>
      rw [put]
      split
      · next hg => rw [fields_cons, fields_cons, hg]
      · next hg =>
        have hs : f.field ∈ fields s := (List.mem_cons.1 h).resolve_left (Ne.symm hg)
        rw [fields_cons, fields_cons, ih hs]

theorem fields_put (s : Selection) (f : Filter) :
    fields (put s f) = if f.field ∈ fields s then fields s else fields s ++ [f.field] := by
  split
  · next h => exact fields_put_of_mem h
  · next h => rw [put_of_notMem h, fields_append, fields_cons, fields_nil]

theorem fields_filter_sublist (s : Selection) (p : Filter → Bool) :
    (fields (s.filter p)).Sublist (fields s) :=
  List.filter_sublist.map Filter.field

theorem fields_without (s : Selection) (field : String) :
    fields (without s field) = (fields s).filter (· ≠ field) := by
  simp only [fields, without, List.filter_map]
  rfl

/-- Nothing is lost when there is no filter to take out. -/
theorem without_of_notMem {s : Selection} {field : String} (h : field ∉ fields s) :
    without s field = s := by
  rw [without, List.filter_eq_self]
  intro g hg
  have hne : g.field ≠ field := fun he => h (he ▸ List.mem_map_of_mem hg)
  simpa using hne

/-- A filter on a known field stands where the old one stood. -/
theorem exists_put_of_on? {s : Selection} {f old : Filter} (h : on? s f.field = some old) :
    ∃ earlier later, s = earlier ++ old :: later ∧ put s f = earlier ++ f :: later := by
  induction s with
  | nil => contradiction
  | cons g s ih =>
      by_cases hg : g.field = f.field
      · have hold : g = old := by simpa [on?, hg] using h
        exact ⟨[], s, by simp [hold], by simp [put, hg]⟩
      · have hs : on? s f.field = some old := by simpa [on?, hg] using h
        obtain ⟨earlier, later, hsplit, hput⟩ := ih hs
        exact ⟨g :: earlier, later, by simp [hsplit], by simp [put, hg, hput]⟩

/-! ## keeping the filters on some fields -/

/-- Where only some fields are kept, what is found on them stays. -/
theorem on?_filter (s : Selection) (p : String → Bool) (field : String) :
    on? (s.filter fun g => p g.field) field = if p field then on? s field else none := by
  rw [on?, List.find?_filter]
  split
  · next hp =>
    rw [on?]
    congr 1
    funext g
    by_cases hg : g.field = field <;> simp [hg, hp]
  · next hp =>
    rw [List.find?_eq_none]
    intro g _
    by_cases hg : g.field = field <;> simp [hg, hp]

/-- Where only some fields are kept, a filter on one of them may be put in before or after. -/
theorem filter_put (s : Selection) (f : Filter) (p : String → Bool) :
    (put s f).filter (fun g => p g.field) =
      if p f.field then put (s.filter fun g => p g.field) f else s.filter fun g => p g.field := by
  induction s with
  | nil => cases hf : p f.field <;> simp [put, hf]
  | cons g s ih =>
      by_cases hg : g.field = f.field
      · cases hf : p f.field <;> simp [put, hg, hf]
      · rw [put, if_neg hg, List.filter_cons, List.filter_cons, ih]
        cases p f.field <;> cases p g.field <;> simp [put, hg]

/-- Putting a filter in leaves the filters on other fields, and their order. -/
theorem without_put_self (s : Selection) (f : Filter) :
    without (put s f) f.field = without s f.field := by
  simpa [without] using filter_put s f fun field => field ≠ f.field

theorem without_without_self (s : Selection) (field : String) :
    without (without s field) field = without s field := by
  simp only [without, List.filter_filter, Bool.and_self]

/-- Putting a filter in that is there already changes nothing. -/
theorem put_of_on? {s : Selection} {f : Filter} (h : on? s f.field = some f) : put s f = s := by
  induction s with
  | nil => contradiction
  | cons g s ih =>
      by_cases hg : g.field = f.field
      · have hgf : g = f := by simpa [on?, hg] using h
        rw [put, if_pos hg, hgf]
      · have hs : on? s f.field = some f := by simpa [on?, hg] using h
        rw [put, if_neg hg, ih hs]

/-- Of a selection with one filter per field, the filters on a field are the one found there. -/
theorem filter_field_eq {s : Selection} {field : String} {f : Filter}
    (hd : (fields s).Nodup) (h : on? s field = some f) :
    s.filter (fun g => g.field = field) = [f] := by
  induction s with
  | nil => contradiction
  | cons g s ih =>
      rw [fields_cons, List.nodup_cons] at hd
      by_cases hg : g.field = field
      · have hgf : g = f := by simpa [on?, hg] using h
        have hrest : s.filter (fun g => g.field = field) = [] := by
          rw [List.filter_eq_nil_iff]
          intro x hx hfield
          have hxg : x.field = g.field := by simpa [hg] using hfield
          exact hd.1 (hxg ▸ List.mem_map_of_mem hx)
        rw [List.filter_cons_of_pos (by simpa using hg), hrest, hgf]
      · have hs : on? s field = some f := by simpa [on?, hg] using h
        rw [List.filter_cons_of_neg (by simpa using hg), ih hd.2 hs]

/-! ## two fields -/

theorem without_without_comm (s : Selection) (field other : String) :
    without (without s field) other = without (without s other) field := by
  simp only [without, List.filter_filter, Bool.and_comm]

/-- A filter is put in and the one on another field taken out in either order. -/
theorem without_put_of_ne {s : Selection} {f : Filter} {field : String} (h : field ≠ f.field) :
    without (put s f) field = put (without s field) f := by
  simpa [without, Ne.symm h] using filter_put s f fun name => name ≠ field

/-- Two filters are put in in either order when one of them takes the place of another. -/
theorem put_put_comm {s : Selection} {f g : Filter} (hne : f.field ≠ g.field)
    (h : f.field ∈ fields s ∨ g.field ∈ fields s) : put (put s f) g = put (put s g) f := by
  induction s with
  | nil => simp at h
  | cons x s ih =>
      by_cases hf : x.field = f.field
      · simp [put, hf, hne]
      by_cases hg : x.field = g.field
      · simp [put, hg, Ne.symm hne]
      · have hs : f.field ∈ fields s ∨ g.field ∈ fields s := by
          simpa [Ne.symm hf, Ne.symm hg] using h
        simp [put, hf, hg, ih hs]

/-- Two filters on new fields go to the end in the order in which they are put in. -/
theorem put_put_of_notMem {s : Selection} {f g : Filter} (hne : f.field ≠ g.field)
    (hf : f.field ∉ fields s) (hg : g.field ∉ fields s) : put (put s f) g = s ++ [f, g] := by
  have hfg : g.field ∉ fields (s ++ [f]) := by simp [hg, Ne.symm hne]
  rw [put_of_notMem hf, put_of_notMem hfg, List.append_assoc]
  rfl

/-! ## the invariant -/

/-- One filter per field, and each of them valid. -/
structure Valid (catalog : Catalog) (s : Selection) : Prop where
  distinct : (fields s).Nodup
  valid : ∀ f ∈ s, f.Valid catalog

variable {catalog : Catalog} {s : Selection}

theorem valid_nil : Valid catalog [] := ⟨List.nodup_nil, fun _ h => absurd h List.not_mem_nil⟩

theorem Valid.put (h : Valid catalog s) {f : Filter} (hf : f.Valid catalog) :
    Valid catalog (put s f) := by
  constructor
  · rw [fields_put]
    split
    · exact h.distinct
    · next hn =>
      rw [List.nodup_append]
      refine ⟨h.distinct, by simp, ?_⟩
      intro a ha b hb
      rw [List.mem_singleton.1 hb]
      exact fun he => hn (he ▸ ha)
  · intro g hg
    obtain rfl | hg := mem_put hg
    · exact hf
    · exact h.valid g hg

/-- Keeping some of the filters. -/
theorem Valid.filter (h : Valid catalog s) (p : Filter → Bool) : Valid catalog (s.filter p) :=
  ⟨(fields_filter_sublist s p).nodup h.distinct, fun g hg => h.valid g (List.mem_filter.1 hg).1⟩

theorem Valid.without (h : Valid catalog s) (field : String) : Valid catalog (without s field) :=
  h.filter _

end Selection

namespace Criteria

theorem on?_eq_none_iff {c : Criteria} {field : String} :
    c.on? field = none ↔ field ∉ Selection.fields c.filters :=
  Selection.on?_eq_none_iff

/-- A filter on a pinned field is kept. -/
theorem on?_pinnedOnly {c : Criteria} {policy : Policy} {field : String}
    (h : policy.isPinned field = true) : (c.pinnedOnly policy).on? field = c.on? field := by
  simp [on?, pinnedOnly, Selection.on?_filter, h]

/-- A field that is not pinned has no filter once everything is cleared. -/
theorem on?_pinnedOnly_of_not_isPinned {c : Criteria} {policy : Policy} {field : String}
    (h : policy.isPinned field = false) : (c.pinnedOnly policy).on? field = none := by
  simp [on?, pinnedOnly, Selection.on?_filter, h]

/-! ## what links show -/

/-- A filter on a field that is not hidden is shown. -/
theorem on?_visible {c : Criteria} {policy : Policy} {field : String}
    (h : policy.isHidden field = false) : Selection.on? (c.visible policy) field = c.on? field := by
  simp [on?, visible, Selection.on?_filter c.filters fun name => !policy.isHidden name, h]

theorem visible_put (c : Criteria) (f : Filter) (policy : Policy) :
    (c.put f).visible policy =
      if policy.isHidden f.field then c.visible policy else Selection.put (c.visible policy) f := by
  have h := Selection.filter_put c.filters f fun field => !policy.isHidden field
  cases hf : policy.isHidden f.field <;> simpa [put, visible, hf] using h

/-! ## changes that change nothing -/

theorem put_of_on? {c : Criteria} {f : Filter} (h : c.on? f.field = some f) : c.put f = c := by
  have hs : Selection.put c.filters f = c.filters := Selection.put_of_on? h
  rw [put, hs]

theorem withPage_of_page_eq {c : Criteria} {n : UInt32} (h : c.page = n) : c.withPage n = c := by
  rw [← h]
  rfl

theorem pinnedOnly_of_length_eq {c : Criteria} {policy : Policy}
    (h : (c.pinnedOnly policy).filters.length = c.filters.length) : c.pinnedOnly policy = c := by
  have hs : c.filters.filter (fun f => policy.isPinned f.field) = c.filters :=
    List.filter_eq_self.2 (List.length_filter_eq_length_iff.1 h)
  rw [pinnedOnly, hs]

theorem pinnedOnly_pinnedOnly (c : Criteria) (policy : Policy) :
    (c.pinnedOnly policy).pinnedOnly policy = c.pinnedOnly policy := by
  simp only [pinnedOnly, List.filter_filter, Bool.and_self]

end Criteria

end ViewFilters
