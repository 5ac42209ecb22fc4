import ViewFilters.Context
import ViewFilters.Filter

/-!
# ViewFilters.Criteria

What a view shows: the filters in force and the page.

1. There is at most one filter per field.  A new filter on a field takes the
   place of the old one; a filter on a new field goes to the end.
2. The functions on criteria only say what is shown next.  Who may change what,
   and what becomes of the link, is the editor's business.
-/

namespace ViewFilters

/-! ## filters by field -/

/-- The filters in force, in the order in which their fields arrived. -/
abbrev Selection := List Filter

namespace Selection

/-- The filter on a field. -/
def on? (s : Selection) (field : String) : Option Filter := s.find? fun f => f.field = field

/-- The selection with a filter in place of the one on its field, or at the end. -/
def put : Selection → Filter → Selection
  | [], f => [f]
  | g :: s, f => if g.field = f.field then f :: s else g :: put s f

/-- The selection without the filter on a field. -/
def without (s : Selection) (field : String) : Selection := s.filter fun f => f.field ≠ field

/-- The fields that are filtered on. -/
def fields (s : Selection) : List String := s.map (·.field)

/-! ### one field at a time -/

theorem mem_of_on? {s : Selection} {field : String} {f : Filter} (h : on? s field = some f) :
    f ∈ s :=
  List.mem_of_find?_eq_some h

@[simp] theorem on?_put_self (s : Selection) (f : Filter) : on? (put s f) f.field = some f := by
  induction s with
  | nil => simp [on?, put]
  | cons g s ih =>
    simp only [put]
    split
    · simp [on?]
    · next h => simpa [on?, h] using ih

theorem on?_put_of_ne {s : Selection} {f : Filter} {field : String} (h : field ≠ f.field) :
    on? (put s f) field = on? s field := by
  induction s with
  | nil => simp [on?, put, Ne.symm h]
  | cons g s ih =>
    simp only [put]
    split
    · next hg => simp [on?, Ne.symm h, hg]
    · by_cases hf : g.field = field
      · simp [on?, hf]
      · simpa [on?, hf] using ih

@[simp] theorem on?_without_self (s : Selection) (field : String) :
    on? (without s field) field = none := by
  simp [on?, without]

theorem on?_without_of_ne {s : Selection} {field other : String} (h : other ≠ field) :
    on? (without s field) other = on? s other := by
  induction s with
  | nil => rfl
  | cons g s ih =>
    by_cases hg : g.field = field
    · have : g.field ≠ other := fun e => h (e ▸ hg)
      simpa [on?, without, hg, Ne.symm h] using ih
    · by_cases hf : g.field = other
      · simp [on?, without, hf, h]
      · simpa [on?, without, hg, hf] using ih

end Selection

/-! ## criteria -/

/-- The page that is shown and how much fits on it.  Pages count from one. -/
structure Pagination where
  page : UInt32
  size : UInt32
  deriving DecidableEq

/-- What a view shows. -/
structure Criteria where
  filters : Selection
  pagination : Pagination
  deriving DecidableEq

namespace Criteria

/-- No filters, and the first page. -/
def blank (ctx : Context) : Criteria := ⟨[], ⟨1, ctx.defaultPageSize⟩⟩

/-- The filter on a field. -/
def on? (c : Criteria) (field : String) : Option Filter := Selection.on? c.filters field

/-- The page that is shown. -/
def page (c : Criteria) : UInt32 := c.pagination.page

/-- How much fits on a page. -/
def pageSize (c : Criteria) : UInt32 := c.pagination.size

/-- The criteria with another page. -/
def withPage (c : Criteria) (page : UInt32) : Criteria :=
  { c with pagination := { c.pagination with page } }

/-- The criteria with another page size. -/
def withPageSize (c : Criteria) (size : UInt32) : Criteria :=
  { c with pagination := { c.pagination with size } }

/-- The criteria with a filter put into them. -/
def put (c : Criteria) (f : Filter) : Criteria := { c with filters := Selection.put c.filters f }

/-- The criteria without the filter on a field. -/
def without (c : Criteria) (field : String) : Criteria :=
  { c with filters := Selection.without c.filters field }

/-- The criteria with only the filters on pinned fields. -/
def pinnedOnly (c : Criteria) (policy : Policy) : Criteria :=
  { c with filters := c.filters.filter fun f => policy.isPinned f.field }

/-- The filters that links show. -/
def visible (c : Criteria) (policy : Policy) : Selection :=
  c.filters.filter fun f => !policy.isHidden f.field

end Criteria

end ViewFilters
