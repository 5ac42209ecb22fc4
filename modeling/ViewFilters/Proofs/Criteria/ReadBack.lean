import ViewFilters.Criteria.Link
import ViewFilters.Proofs.Criteria.Selection
import ViewFilters.Proofs.Filter.ReadBack
import ViewFilters.Proofs.Text.Characters

/-!
# ViewFilters.Proofs.Criteria.ReadBack

A link gives back what it shows:

```
ofQuery (query c)  =  the visible filters of c, with its page and page size
```

for all criteria that are *linkable*: the selection is valid, its values are
separable, and the counts are ones that a link can carry, that is, above zero,
or for the page size the default.  Every query that is read gives linkable
criteria (`linkable_ofQuery`); `ofQuery_query` is the read-back law.
-/

namespace ViewFilters

/-! ## counts -/

/-- A count above zero is read back from its text. -/
theorem readCount?_text {n : UInt32} (h : n ≠ 0) :
    readCount? (Decimal.text n.toNat) = some n := by
  unfold readCount? Decimal.text
  rw [String.toList_ofList]
  dsimp only
  split
  · next cs hcs =>
    have hplus := Decimal.plus_notMem_digits n.toNat
    simp [hcs] at hplus
  · rw [Decimal.uint32?_digits]
    simp [h]

theorem countOr_text {n : UInt32} (h : n ≠ 0) (standard : UInt32) (key : String) :
    countOr standard key (Decimal.text n.toNat) = (n, []) := by
  rw [countOr, readCount?_text h]

/-- What is read as a count is above zero or the default. -/
theorem countOr_ne_zero_or (standard : UInt32) (key raw : String) :
    (countOr standard key raw).1 ≠ 0 ∨ (countOr standard key raw).1 = standard := by
  unfold countOr
  split
  · next n hn =>
    obtain ⟨-, hne⟩ := Option.filter_eq_some_iff.1 hn
    exact Or.inl (by simpa using hne)
  · exact Or.inr rfl

theorem pageSizeKey_ne_pageKey : pageSizeKey ≠ pageKey := by decide

theorem ne_of_isReserved {key : String} (h : isReserved key = false) :
    key ≠ pageKey ∧ key ≠ pageSizeKey := by
  simpa [isReserved] using h

namespace Criteria

/-! ## linkable criteria -/

/-- Criteria that a link can carry. -/
structure Linkable (ctx : Context) (c : Criteria) : Prop where
  selection : Selection.Valid ctx.catalog c.filters
  separable : ∀ f ∈ c.filters, f.value.Separable
  page_ne : c.page ≠ 0
  pageSize : c.pageSize ≠ 0 ∨ c.pageSize = ctx.defaultPageSize

namespace Linkable

variable {ctx : Context} {c : Criteria}

theorem put (h : c.Linkable ctx) {f : Filter} (hf : f.Valid ctx.catalog) (hs : f.value.Separable) :
    (c.put f).Linkable ctx := by
  refine ⟨h.selection.put hf, ?_, h.page_ne, h.pageSize⟩
  intro g hg
  obtain rfl | hg := Selection.mem_put hg
  · exact hs
  · exact h.separable g hg

theorem without (h : c.Linkable ctx) (field : String) : (c.without field).Linkable ctx :=
  ⟨h.selection.without field, fun g hg => h.separable g (Selection.mem_of_mem_without hg),
    h.page_ne, h.pageSize⟩

theorem pinnedOnly (h : c.Linkable ctx) (policy : Policy) : (c.pinnedOnly policy).Linkable ctx :=
  ⟨h.selection.filter _, fun g hg => h.separable g (List.mem_filter.1 hg).1, h.page_ne, h.pageSize⟩

theorem withPage (h : c.Linkable ctx) {n : UInt32} (hn : n ≠ 0) : (c.withPage n).Linkable ctx :=
  ⟨h.selection, h.separable, hn, h.pageSize⟩

theorem withPageSize (h : c.Linkable ctx) {n : UInt32} (hn : n ≠ 0 ∨ n = ctx.defaultPageSize) :
    (c.withPageSize n).Linkable ctx :=
  ⟨h.selection, h.separable, h.page_ne, hn⟩

end Linkable

theorem linkable_blank (ctx : Context) : (blank ctx).Linkable ctx :=
  ⟨Selection.valid_nil, fun _ h => absurd h List.not_mem_nil, (by decide : (1 : UInt32) ≠ 0),
    Or.inr rfl⟩

/-! ## reading -/

theorem linkable_readPair {ctx : Context} {c : Criteria} (h : c.Linkable ctx) (key raw : String) :
    (c.readPair ctx key raw).1.Linkable ctx := by
  unfold readPair
  split
  · obtain hn | hn := countOr_ne_zero_or 1 key raw
    · exact h.withPage hn
    · refine h.withPage ?_
      rw [hn]
      decide
  split
  · exact h.withPageSize (countOr_ne_zero_or _ key raw)
  · split
    · next f events hr =>
      have hf : (Filter.recover ctx.catalog key raw).1 = some f := by rw [hr]
      exact h.put (Filter.valid_of_recover hf) (Filter.separable_of_recover hf)
    · exact h.without key

theorem linkable_readPairs {ctx : Context} {c : Criteria} (h : c.Linkable ctx)
    (pairs : List (String × String)) : (readPairs ctx c pairs).1.Linkable ctx := by
  induction pairs generalizing c with
  | nil => exact h
  | cons pair pairs ih => exact ih (linkable_readPair h pair.1 pair.2)

/-- Whatever a query holds, the criteria that are read from it can be linked to. -/
theorem linkable_ofQuery (ctx : Context) (query : String) : (ofQuery ctx query).1.Linkable ctx :=
  linkable_readPairs (linkable_blank ctx) _

/-! ## reading back -/

theorem readPairs_cons_of_eq {ctx : Context} {c c' : Criteria} {pair : String × String}
    (h : c.readPair ctx pair.1 pair.2 = (c', [])) (pairs : List (String × String)) :
    readPairs ctx c (pair :: pairs) = readPairs ctx c' pairs := by
  simp only [readPairs, h, List.nil_append]

/-- A filter on a new field is read back to the end of the selection. -/
theorem readPair_parameter {ctx : Context} {c : Criteria} {f : Filter}
    (hf : f.Valid ctx.catalog) (hs : f.value.Separable)
    (hn : f.field ∉ Selection.fields c.filters) :
    c.readPair ctx f.parameter.1 f.parameter.2 = ({ c with filters := c.filters ++ [f] }, []) := by
  obtain ⟨hpage, hsize⟩ := ne_of_isReserved hf.unreserved
  have hkey : f.parameter.1 = f.field := rfl
  rw [readPair, hkey, if_neg hpage, if_neg hsize, Filter.recover_parameter hf hs]
  simp only [put, Selection.put_of_notMem hn]

/-- Filters on distinct new fields are read back in their order. -/
theorem readPairs_map_parameter {ctx : Context} {c : Criteria} {s : Selection}
    (hv : ∀ f ∈ s, f.Valid ctx.catalog) (hs : ∀ f ∈ s, f.value.Separable)
    (hd : (Selection.fields (c.filters ++ s)).Nodup) (pairs : List (String × String)) :
    readPairs ctx c (s.map Filter.parameter ++ pairs) =
      readPairs ctx { c with filters := c.filters ++ s } pairs := by
  induction s generalizing c with
  | nil => rw [List.map_nil, List.nil_append, List.append_nil]
  | cons f s ih =>
      have hnew : f.field ∉ Selection.fields c.filters := by
        rw [Selection.fields_append, Selection.fields_cons, List.nodup_append] at hd
        exact fun hmem => hd.2.2 f.field hmem f.field List.mem_cons_self rfl
      have hfirst := readPair_parameter (hv f List.mem_cons_self) (hs f List.mem_cons_self) hnew
      rw [List.map_cons, List.cons_append, readPairs_cons_of_eq hfirst]
      rw [ih (fun g hg => hv g (List.mem_cons_of_mem f hg))
        (fun g hg => hs g (List.mem_cons_of_mem f hg)) (by simpa using hd)]
      simp

/-- The page and the page size are read back. -/
theorem readPairs_pagination_pairs {ctx : Context} {s : Selection} {p : Pagination}
    (hp : p.page ≠ 0) (hs : p.size ≠ 0 ∨ p.size = ctx.defaultPageSize) :
    readPairs ctx ⟨s, ⟨1, ctx.defaultPageSize⟩⟩ p.pairs = (⟨s, p⟩, []) := by
  have hpage : ∀ c : Criteria, c.readPair ctx pageKey (Decimal.text p.page.toNat) =
      (c.withPage p.page, []) := by
    intro c
    simp only [readPair, if_pos, countOr_text hp]
  have hsize : ∀ c : Criteria, p.size ≠ 0 →
      c.readPair ctx pageSizeKey (Decimal.text p.size.toNat) = (c.withPageSize p.size, []) := by
    intro c h
    simp only [readPair, if_neg pageSizeKey_ne_pageKey, if_pos, countOr_text h]
  by_cases h0 : p.size = 0
  · have hdef : p.size = ctx.defaultPageSize := hs.resolve_left (fun h => h h0)
    rw [Pagination.pairs, countPair, if_neg hp, countPair, if_pos h0, List.append_nil,
      readPairs_cons_of_eq (hpage _), readPairs, ← hdef]
    rfl
  · rw [Pagination.pairs, countPair, if_neg hp, countPair, if_neg h0, List.singleton_append,
      readPairs_cons_of_eq (hpage _), readPairs_cons_of_eq (hsize _ h0), readPairs]
    rfl

/-- **Read-back**: the link to linkable criteria gives their visible filters in
order, their page and their page size, and nothing has to be recovered. -/
theorem ofQuery_query {ctx : Context} {c : Criteria} (h : c.Linkable ctx) :
    ofQuery ctx (c.query ctx.policy) = (⟨c.visible ctx.policy, c.pagination⟩, []) := by
  have hsel : Selection.Valid ctx.catalog (c.visible ctx.policy) := h.selection.filter _
  have hsep : ∀ f ∈ c.visible ctx.policy, f.value.Separable :=
    fun f hf => h.separable f (List.mem_filter.1 hf).1
  have hdistinct : (Selection.fields ((blank ctx).filters ++ c.visible ctx.policy)).Nodup :=
    hsel.distinct
  rw [ofQuery, query, dropQuestionMark_write, FormUrl.read_write, pairs,
    readPairs_map_parameter hsel.valid hsep hdistinct]
  exact readPairs_pagination_pairs h.page_ne h.pageSize

end Criteria

end ViewFilters
