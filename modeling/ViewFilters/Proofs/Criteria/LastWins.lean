import ViewFilters.Criteria.Link
import ViewFilters.Proofs.Criteria.ReadBack

/-!
# ViewFilters.Proofs.Criteria.LastWins

Of several pairs of a query with one key only the last counts: the filter that is
read on a field is the one that the last value of its key can be taken to stand
for, and there is none when that value stands for none (`on?_ofQuery`).  It is the
same with the page and its size (`page_ofQuery`, `pageSize_ofQuery`).

```
result=[in]failed&result=     no filter on result
page=2&page=0                 page 1
```
-/

namespace ViewFilters

/-- The value of the last pair with a key. -/
def lastValue? (key : String) (pairs : List (String × String)) : Option String :=
  pairs.reverse.lookup key

theorem lastValue?_cons_self (key raw : String) (pairs : List (String × String)) :
    lastValue? key ((key, raw) :: pairs) = (lastValue? key pairs).or (some raw) := by
  simp [lastValue?, List.lookup_append]

theorem lastValue?_cons_of_ne {key other : String} (h : key ≠ other) (raw : String)
    (pairs : List (String × String)) :
    lastValue? key ((other, raw) :: pairs) = lastValue? key pairs := by
  have hb : (key == other) = false := by simpa using h
  simp [lastValue?, List.lookup_append, List.lookup_cons, hb]

namespace Criteria

variable {ctx : Context} {c : Criteria} {key field : String}

theorem on?_readPair_self (hk : isReserved key = false) (raw : String) :
    (c.readPair ctx key raw).1.on? key = (Filter.recover ctx.catalog key raw).1 := by
  obtain ⟨hpage, hsize⟩ := ne_of_isReserved hk
  rw [readPair, if_neg hpage, if_neg hsize]
  split
  · next f events hr =>
    have hf : f.field = key := Filter.field_of_recover (by rw [hr])
    rw [hr, ← hf]
    exact Selection.on?_put_self c.filters f
  · next events hr =>
    rw [hr]
    exact Selection.on?_without_self c.filters key

theorem on?_readPair_of_ne (h : field ≠ key) (raw : String) :
    (c.readPair ctx key raw).1.on? field = c.on? field := by
  unfold readPair
  split
  · rfl
  split
  · rfl
  split
  · next f events hr =>
    have hf : f.field = key := Filter.field_of_recover (by rw [hr])
    exact Selection.on?_put_of_ne (hf ▸ h)
  · exact Selection.on?_without_of_ne h

/-- What is read off the criteria after a query, when the pairs with one key alone have to do
with it, is what the last of them makes of it. -/
theorem readPairs_last {α : Type} {read : Criteria → α} {value : String → α}
    (hself : ∀ c raw, read (readPair ctx c key raw).1 = value raw)
    (hother : ∀ c other raw, key ≠ other → read (readPair ctx c other raw).1 = read c)
    (c : Criteria) (pairs : List (String × String)) :
    read (readPairs ctx c pairs).1 = (lastValue? key pairs).elim (read c) value := by
  -- a pair with the key makes what was read before it count no more, so the
  -- criteria that the rest is read into are any criteria
  induction pairs generalizing c with
  | nil => rfl
  | cons pair pairs ih =>
      obtain ⟨other, raw⟩ := pair
      have hstep : (readPairs ctx c ((other, raw) :: pairs)).1 =
          (readPairs ctx (c.readPair ctx other raw).1 pairs).1 := rfl
      rw [hstep, ih]
      by_cases h : key = other
      · subst h
        rw [lastValue?_cons_self, hself]
        cases lastValue? key pairs <;> rfl
      · rw [lastValue?_cons_of_ne h, hother c other raw h]

theorem on?_readPairs (hk : isReserved key = false) (pairs : List (String × String)) :
    (readPairs ctx c pairs).1.on? key =
      match lastValue? key pairs with
      | some raw => (Filter.recover ctx.catalog key raw).1
      | none => c.on? key := by
  rw [@readPairs_last ctx key _ (·.on? key) (fun raw => (Filter.recover ctx.catalog key raw).1)
    (fun _ raw => on?_readPair_self hk raw) (fun _ _ raw h => on?_readPair_of_ne h raw)]
  cases lastValue? key pairs <;> rfl

/-- **Last wins**: the filter that a query puts on a field is what the last value
of its key can be taken to stand for. -/
theorem on?_ofQuery (ctx : Context) (hk : isReserved key = false) (query : String) :
    (ofQuery ctx query).1.on? key =
      (lastValue? key (FormUrl.read (dropQuestionMark query))).bind
        fun raw => (Filter.recover ctx.catalog key raw).1 := by
  rw [ofQuery, on?_readPairs hk]
  cases lastValue? key (FormUrl.read (dropQuestionMark query)) <;> rfl

/-! ## counts -/

theorem countOr_fst (standard : UInt32) (key raw : String) :
    (countOr standard key raw).1 = (readCount? raw).getD standard := by
  unfold countOr
  cases readCount? raw <;> rfl

theorem page_readPair_self (c : Criteria) (raw : String) :
    (c.readPair ctx pageKey raw).1.page = (readCount? raw).getD 1 := by
  rw [readPair, if_pos rfl, ← countOr_fst 1 pageKey]
  rfl

theorem page_readPair_of_ne (h : pageKey ≠ key) (raw : String) :
    (c.readPair ctx key raw).1.page = c.page := by
  rw [readPair, if_neg (Ne.symm h)]
  split
  · rfl
  · split <;> rfl

theorem pageSize_readPair_self (c : Criteria) (raw : String) :
    (c.readPair ctx pageSizeKey raw).1.pageSize = (readCount? raw).getD ctx.defaultPageSize := by
  rw [readPair, if_neg pageSizeKey_ne_pageKey, if_pos rfl, ← countOr_fst _ pageSizeKey]
  rfl

theorem pageSize_readPair_of_ne (h : pageSizeKey ≠ key) (raw : String) :
    (c.readPair ctx key raw).1.pageSize = c.pageSize := by
  rw [readPair]
  split
  · rfl
  rw [if_neg (Ne.symm h)]
  split <;> rfl

/-- The page is the last one that is asked for, or the first if that is not a number above zero. -/
theorem page_ofQuery (ctx : Context) (query : String) :
    (ofQuery ctx query).1.page =
      ((lastValue? pageKey (FormUrl.read (dropQuestionMark query))).bind readCount?).getD 1 := by
  rw [ofQuery, readPairs_last page_readPair_self fun _ _ raw h => page_readPair_of_ne h raw]
  cases lastValue? pageKey (FormUrl.read (dropQuestionMark query)) <;> rfl

/-- The page size is the last one that is asked for, or the default if that is not a number
above zero. -/
theorem pageSize_ofQuery (ctx : Context) (query : String) :
    (ofQuery ctx query).1.pageSize =
      ((lastValue? pageSizeKey (FormUrl.read (dropQuestionMark query))).bind readCount?).getD
        ctx.defaultPageSize := by
  rw [ofQuery, readPairs_last pageSize_readPair_self fun _ _ raw h => pageSize_readPair_of_ne h raw]
  cases lastValue? pageSizeKey (FormUrl.read (dropQuestionMark query)) <;> rfl

end Criteria

end ViewFilters
