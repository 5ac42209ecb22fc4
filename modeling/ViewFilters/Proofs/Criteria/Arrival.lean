import Mathlib.Data.List.Induction
import Mathlib.Logic.Function.Basic
import ViewFilters.Config
import ViewFilters.Editor
import ViewFilters.Proofs.Criteria.LastWins

/-!
# ViewFilters.Proofs.Criteria.Arrival

The order of the filters that are read from a query.  A pair that cannot be read as a
filter is dropped and takes away the filter on its key; of the pairs with one key the
first after the last dropped one is where the key *arrives*:

```
place   0          1                2         3             4          5
pair    result=a   component=ui     result=   branch=main   result=b   component=api
```

`component` arrives at 1, `branch` at 3 and `result` at 4, so the filters are on
`component`, `branch` and `result`, in this order.  A later pair with a key that has
arrived changes the filter in its place.
-/

namespace ViewFilters.Criteria

/-! ## places -/

/-- The pair at a place has the key. -/
def OccursAt (pairs : List (String × String)) (key : String) (n : Nat) : Prop :=
  ∃ raw, pairs[n]? = some (key, raw)

/-- The pair at a place has the key and cannot be read as a filter. -/
def DroppedAt (catalog : Catalog) (pairs : List (String × String)) (key : String) (n : Nat) : Prop :=
  ∃ raw, pairs[n]? = some (key, raw) ∧ (Filter.recover catalog key raw).1 = none

/-- The place holds the first pair with the key after the last one that is dropped. -/
structure ArrivesAt (catalog : Catalog) (pairs : List (String × String)) (key : String)
    (n : Nat) : Prop where
  occurs : OccursAt pairs key n
  kept : ∀ m, n ≤ m → ¬ DroppedAt catalog pairs key m
  first : ∀ m, m < n → OccursAt pairs key m →
    ∃ k, m ≤ k ∧ k < n ∧ DroppedAt catalog pairs key k

variable {catalog : Catalog} {pairs : List (String × String)} {key other raw : String} {n : Nat}

theorem OccursAt.lt (h : OccursAt pairs key n) : n < pairs.length := by
  obtain ⟨raw, hraw⟩ := h
  exact (List.getElem?_eq_some_iff.1 hraw).1

theorem DroppedAt.occursAt (h : DroppedAt catalog pairs key n) : OccursAt pairs key n := by
  obtain ⟨raw, hraw, -⟩ := h
  exact ⟨raw, hraw⟩

/-! ### one more pair -/

theorem getElem?_concat_eq_some_iff {α : Type} {xs : List α} {x y : α} :
    (xs ++ [x])[n]? = some y ↔ xs[n]? = some y ∨ (n = xs.length ∧ x = y) := by
  obtain hlt | rfl | hgt := Nat.lt_trichotomy n xs.length
  · rw [List.getElem?_append_left hlt]
    simp [Nat.ne_of_lt hlt]
  · simp
  · have hlength : (xs ++ [x]).length ≤ n := by simpa using Nat.succ_le_of_lt hgt
    rw [List.getElem?_eq_none hlength, List.getElem?_eq_none (Nat.le_of_lt hgt)]
    simp [Nat.ne_of_gt hgt]

theorem occursAt_concat_iff :
    OccursAt (pairs ++ [(other, raw)]) key n ↔
      OccursAt pairs key n ∨ (n = pairs.length ∧ other = key) := by
  simp [OccursAt, getElem?_concat_eq_some_iff, exists_or]

theorem droppedAt_concat_iff :
    DroppedAt catalog (pairs ++ [(other, raw)]) key n ↔
      DroppedAt catalog pairs key n ∨
        (n = pairs.length ∧ other = key ∧ (Filter.recover catalog key raw).1 = none) := by
  simp only [DroppedAt, getElem?_concat_eq_some_iff, Prod.mk.injEq, or_and_right, exists_or]
  constructor
  · rintro (h | ⟨raw', ⟨hn, hkey, rfl⟩, hnone⟩)
    · exact Or.inl h
    · exact Or.inr ⟨hn, hkey, hnone⟩
  · rintro (h | ⟨hn, hkey, hnone⟩)
    · exact Or.inl h
    · exact Or.inr ⟨raw, ⟨hn, hkey, rfl⟩, hnone⟩

/-- A key that has arrived stays where it is until it is dropped. -/
theorem ArrivesAt.concat (h : ArrivesAt catalog pairs key n)
    (hkept : other = key → (Filter.recover catalog key raw).1 ≠ none) :
    ArrivesAt catalog (pairs ++ [(other, raw)]) key n where
  occurs := occursAt_concat_iff.2 (Or.inl h.occurs)
  kept m hm hdropped := by
    obtain hdropped | ⟨-, hother, hnone⟩ := droppedAt_concat_iff.1 hdropped
    · exact h.kept m hm hdropped
    · exact hkept hother hnone
  first m hm hoccurs := by
    obtain hoccurs | ⟨rfl, -⟩ := occursAt_concat_iff.1 hoccurs
    · obtain ⟨k, hmk, hkn, hdropped⟩ := h.first m hm hoccurs
      exact ⟨k, hmk, hkn, droppedAt_concat_iff.2 (Or.inl hdropped)⟩
    · exact absurd h.occurs.lt (Nat.lt_asymm hm)

/-- A key of which every pair is followed by a dropped one arrives with the next pair. -/
theorem arrivesAt_length
    (hgone : ∀ m, OccursAt pairs key m → ∃ k, m ≤ k ∧ DroppedAt catalog pairs key k)
    (hkept : (Filter.recover catalog key raw).1 ≠ none) :
    ArrivesAt catalog (pairs ++ [(key, raw)]) key pairs.length where
  occurs := occursAt_concat_iff.2 (Or.inr ⟨rfl, rfl⟩)
  kept m hm hdropped := by
    obtain hdropped | ⟨-, -, hnone⟩ := droppedAt_concat_iff.1 hdropped
    · exact absurd hdropped.occursAt.lt (Nat.not_lt.2 hm)
    · exact hkept hnone
  first m hm hoccurs := by
    obtain hoccurs | ⟨rfl, -⟩ := occursAt_concat_iff.1 hoccurs
    · obtain ⟨k, hmk, hdropped⟩ := hgone m hoccurs
      exact ⟨k, hmk, hdropped.occursAt.lt, droppedAt_concat_iff.2 (Or.inl hdropped)⟩
    · exact absurd hm (Nat.lt_irrefl _)

/-! ## the order -/

/-- The fields of a selection that was read from some pairs have arrived at the given places,
in this order, and the last pair with any other key was dropped. -/
structure Arranged (catalog : Catalog) (pairs : List (String × String)) (s : Selection)
    (place : String → Nat) : Prop where
  arrives : ∀ field ∈ Selection.fields s, ArrivesAt catalog pairs field (place field)
  gone : ∀ key, isReserved key = false → key ∉ Selection.fields s → ∀ m, OccursAt pairs key m →
    ∃ k, m ≤ k ∧ DroppedAt catalog pairs key k
  ordered : (Selection.fields s).Pairwise fun a b => place a < place b

namespace Arranged

variable {s : Selection} {place : String → Nat}

theorem nil (catalog : Catalog) (place : String → Nat) : Arranged catalog [] [] place where
  arrives _ h := absurd h List.not_mem_nil
  gone _ _ _ _ h := absurd h.lt (Nat.not_lt_zero _)
  ordered := List.Pairwise.nil

/-- The pairs with a key that is gone are still followed by a dropped one after a pair with
another key. -/
theorem gone_concat (h : Arranged catalog pairs s place) (hk : isReserved key = false)
    (hne : other ≠ key) (hgone : key ∉ Selection.fields s) {m : Nat}
    (hm : OccursAt (pairs ++ [(other, raw)]) key m) :
    ∃ k, m ≤ k ∧ DroppedAt catalog (pairs ++ [(other, raw)]) key k := by
  obtain hm | ⟨-, hother⟩ := occursAt_concat_iff.1 hm
  · obtain ⟨k, hmk, hdropped⟩ := h.gone key hk hgone m hm
    exact ⟨k, hmk, droppedAt_concat_iff.2 (Or.inl hdropped)⟩
  · exact absurd hother hne

/-- A pair with a reserved key has no part in the filters. -/
theorem reserved (h : Arranged catalog pairs s place)
    (hfree : ∀ field ∈ Selection.fields s, isReserved field = false)
    (hkey : isReserved key = true) (raw : String) :
    Arranged catalog (pairs ++ [(key, raw)]) s place := by
  have hne : ∀ field, isReserved field = false → key ≠ field := by
    rintro field hfield rfl
    rw [hkey] at hfield
    contradiction
  refine ⟨fun field hfield => ?_, fun field hfield hgone m => ?_, h.ordered⟩
  · exact (h.arrives field hfield).concat fun heq => absurd heq (hne field (hfree field hfield))
  · exact h.gone_concat hfield (hne field hfield) hgone

/-- A filter on a field that has arrived takes the place of the old one. -/
theorem replace (h : Arranged catalog pairs s place) {f : Filter}
    (hf : f.field ∈ Selection.fields s) (hr : (Filter.recover catalog f.field raw).1 = some f) :
    Arranged catalog (pairs ++ [(f.field, raw)]) (Selection.put s f) place := by
  have hfields := Selection.fields_put_of_mem hf
  refine ⟨fun field hfield => ?_, fun key hk hgone m => ?_, ?_⟩
  · rw [hfields] at hfield
    refine (h.arrives field hfield).concat ?_
    rintro rfl
    rw [hr]
    exact Option.some_ne_none f
  · rw [hfields] at hgone
    exact h.gone_concat hk (fun heq => hgone (heq ▸ hf)) hgone
  · rw [hfields]
    exact h.ordered

/-- A filter on a new field arrives behind all others. -/
theorem arrive (h : Arranged catalog pairs s place) {f : Filter}
    (hf : f.field ∉ Selection.fields s) (hfree : isReserved f.field = false)
    (hr : (Filter.recover catalog f.field raw).1 = some f) :
    Arranged catalog (pairs ++ [(f.field, raw)]) (Selection.put s f)
      (Function.update place f.field pairs.length) := by
  have hfields : Selection.fields (Selection.put s f) = Selection.fields s ++ [f.field] := by
    rw [Selection.fields_put, if_neg hf]
  have hold : ∀ field ∈ Selection.fields s,
      Function.update place f.field pairs.length field = place field := by
    intro field hfield
    rw [Function.update_of_ne]
    exact fun heq => hf (heq ▸ hfield)
  refine ⟨fun field hfield => ?_, fun key hk hgone m => ?_, ?_⟩
  · rw [hfields, List.mem_append, List.mem_singleton] at hfield
    obtain hfield | rfl := hfield
    · rw [hold field hfield]
      exact (h.arrives field hfield).concat fun heq => absurd hfield (heq ▸ hf)
    · rw [Function.update_self]
      refine arrivesAt_length (h.gone f.field hfree hf) ?_
      rw [hr]
      exact Option.some_ne_none f
  · rw [hfields, List.mem_append, List.mem_singleton, not_or] at hgone
    exact h.gone_concat hk (Ne.symm hgone.2) hgone.1
  · rw [hfields, List.pairwise_append]
    refine ⟨?_, List.pairwise_singleton _ _, fun field hfield last hlast => ?_⟩
    · refine h.ordered.imp_of_mem fun {a b} ha hb hlt => ?_
      rwa [hold a ha, hold b hb]
    · rw [List.mem_singleton.1 hlast, hold field hfield, Function.update_self]
      exact (h.arrives field hfield).occurs.lt

/-- A pair that is dropped takes away the filter on its key. -/
theorem drop (h : Arranged catalog pairs s place)
    (hr : (Filter.recover catalog key raw).1 = none) :
    Arranged catalog (pairs ++ [(key, raw)]) (Selection.without s key) place := by
  have hfields := Selection.fields_without s key
  refine ⟨fun field hfield => ?_, fun other hk hgone m hm => ?_, ?_⟩
  · rw [hfields, List.mem_filter, decide_eq_true_eq] at hfield
    exact (h.arrives field hfield.1).concat fun heq => absurd heq.symm hfield.2
  · by_cases hother : key = other
    · subst hother
      have hle : m ≤ pairs.length := by
        have := hm.lt
        rw [List.length_append, List.length_singleton] at this
        omega
      exact ⟨pairs.length, hle, droppedAt_concat_iff.2 (Or.inr ⟨rfl, rfl, hr⟩)⟩
    · refine h.gone_concat hk hother (fun hmem => hgone ?_) hm
      rw [hfields, List.mem_filter, decide_eq_true_eq]
      exact ⟨hmem, Ne.symm hother⟩
  · rw [hfields]
    exact h.ordered.filter _

end Arranged

variable {ctx : Context} {c : Criteria}

/-! ## reading -/

theorem readPairs_concat (ctx : Context) (c : Criteria) (pairs : List (String × String))
    (key raw : String) :
    (readPairs ctx c (pairs ++ [(key, raw)])).1 =
      ((readPairs ctx c pairs).1.readPair ctx key raw).1 := by
  induction pairs generalizing c with
  | nil => rfl
  | cons pair pairs ih => exact ih (c.readPair ctx pair.1 pair.2).1

theorem filters_readPair_of_isReserved (h : isReserved key = true) (raw : String) :
    (c.readPair ctx key raw).1.filters = c.filters := by
  unfold readPair
  split
  · rfl
  split
  · rfl
  · next hpage hsize => simp [isReserved, hpage, hsize] at h

theorem filters_readPair (h : isReserved key = false) (raw : String) :
    (c.readPair ctx key raw).1.filters =
      (Filter.recover ctx.catalog key raw).1.elim (Selection.without c.filters key)
        (Selection.put c.filters) := by
  obtain ⟨hpage, hsize⟩ := ne_of_isReserved h
  rw [readPair, if_neg hpage, if_neg hsize]
  split
  · next f events hr => rw [hr]; rfl
  · next events hr => rw [hr]; rfl

/-- **Order**: the filters that are read from some pairs stand in the order in which their
fields arrived. -/
theorem exists_arranged (ctx : Context) (pairs : List (String × String)) :
    ∃ place, Arranged ctx.catalog pairs (readPairs ctx (blank ctx) pairs).1.filters place := by
  induction pairs using List.reverseRecOn with
  | nil => exact ⟨fun _ => 0, Arranged.nil ctx.catalog _⟩
  | append_singleton pairs pair ih =>
      obtain ⟨place, h⟩ := ih
      obtain ⟨key, raw⟩ := pair
      have hvalid := (linkable_readPairs (linkable_blank ctx) pairs).selection.valid
      rw [readPairs_concat]
      cases hk : isReserved key with
      | true =>
          refine ⟨place, ?_⟩
          rw [filters_readPair_of_isReserved hk]
          refine h.reserved (fun field hfield => ?_) hk raw
          obtain ⟨f, hf, rfl⟩ := List.mem_map.1 hfield
          exact (hvalid f hf).unreserved
      | false =>
          rw [filters_readPair hk]
          cases hr : (Filter.recover ctx.catalog key raw).1 with
          | none => exact ⟨place, h.drop hr⟩
          | some f =>
              obtain rfl := Filter.field_of_recover hr
              by_cases hf : f.field ∈ Selection.fields (readPairs ctx (blank ctx) pairs).1.filters
              · exact ⟨place, h.replace hf hr⟩
              · exact ⟨_, h.arrive hf hk hr⟩

/-! ## the whole -/

/-- **Reading a query**: on every key that is not reserved there is the filter that its last
value can be taken to stand for, or none.  The page and the page size are the last ones asked
for, or the defaults when these are no numbers above zero.  The filters stand in the order in
which their fields arrived. -/
theorem ofQuery_last_wins (ctx : Context) (query : String) (h : History) :
    let pairs := FormUrl.read (dropQuestionMark query)
    let c := (Editor.ofQuery ctx query h).1.criteria
    (∀ key, isReserved key = false → c.on? key =
      (lastValue? key pairs).bind fun raw => (Filter.recover ctx.catalog key raw).1) ∧
    c.page = ((lastValue? pageKey pairs).bind readCount?).getD 1 ∧
    c.pageSize = ((lastValue? pageSizeKey pairs).bind readCount?).getD ctx.defaultPageSize ∧
    ∃ place : String → Nat,
      (∀ field ∈ Selection.fields c.filters, ArrivesAt ctx.catalog pairs field (place field)) ∧
      (Selection.fields c.filters).Pairwise fun a b => place a < place b := by
  intro pairs c
  have hc : c = (ofQuery ctx query).1 := Editor.criteria_ofQuery ctx query h
  have harranged : ∃ place, Arranged ctx.catalog pairs (ofQuery ctx query).1.filters place := by
    rw [ofQuery]
    exact exists_arranged ctx _
  rw [hc]
  obtain ⟨place, hplace⟩ := harranged
  exact ⟨fun key hk => on?_ofQuery ctx hk query, page_ofQuery ctx query,
    pageSize_ofQuery ctx query, place, hplace.arrives, hplace.ordered⟩

/-- A filter that goes and comes back is behind one that came in between, and a page that is
no number above zero puts an earlier one aside. -/
theorem ofQuery_last_wins_of_return :
    let ctx := Config.standard.context
    let query := "?tag=x&env=y&tag=&page=2&tag=z&page=0"
    let c := (Editor.ofQuery ctx query History.empty).1.criteria
    isReserved "tag" = false ∧ c.on? "tag" = some ⟨"tag", .eq, .text "z"⟩ ∧
      c.page = 1 ∧ c.pageSize = 20 ∧ Selection.fields c.filters = ["env", "tag"] ∧
      ∃ place : String → Nat, place "env" < place "tag" := by
  intro ctx query c
  have hpairs : FormUrl.read (dropQuestionMark query) =
      [("tag", "x"), ("env", "y"), ("tag", ""), ("page", "2"), ("tag", "z"), ("page", "0")] := by
    decide +kernel
  have hfields : Selection.fields c.filters = ["env", "tag"] := by decide +kernel
  obtain ⟨hon, hpage, hsize, place, -, hordered⟩ := ofQuery_last_wins ctx query History.empty
  rw [show Selection.fields (Editor.ofQuery ctx query History.empty).1.criteria.filters =
    ["env", "tag"] from hfields] at hordered
  rw [hpairs] at hon hpage hsize
  have hkey : isReserved "tag" = false := by decide
  exact ⟨hkey, (hon "tag" hkey).trans (by decide +kernel), hpage.trans (by decide +kernel),
    hsize.trans (by decide +kernel), hfields, place,
    List.rel_of_pairwise_cons hordered List.mem_cons_self⟩

end ViewFilters.Criteria
