import ViewFilters.Criteria
import ViewFilters.Filter.Parameter
import ViewFilters.History
import ViewFilters.Text.Decimal
import ViewFilters.Text.FormUrl

/-!
# ViewFilters.Criteria.Link

Criteria as the query of a link:

```
result=[in]failed;error&component=[eq]ui&page=2&pageSize=20
```

(with the brackets and the `;` escaped).  The visible filters come first, in
order, and then the page and the page size; a count of zero is left out.

Any query can be read.  Its pairs are taken in order:

1. `page` and `pageSize` set the pagination; a value that is no number above
   zero sets the default.
2. A pair that can be read as a filter puts it into the selection.
3. A pair that cannot takes away the filter on its field, so that of several
   pairs with one key only the last counts.
-/

namespace ViewFilters

/-! ## writing -/

/-- The pair for a count, unless it is zero. -/
def countPair (key : String) (count : UInt32) : List (String × String) :=
  if count = 0 then [] else [(key, Decimal.text count.toNat)]

namespace Pagination

/-- The pairs for a page and its size. -/
def pairs (p : Pagination) : List (String × String) :=
  countPair pageKey p.page ++ countPair pageSizeKey p.size

end Pagination

namespace Criteria

/-- The pairs of the link to some criteria. -/
def pairs (c : Criteria) (policy : Policy) : List (String × String) :=
  (c.visible policy).map Filter.parameter ++ c.pagination.pairs

/-- The query of the link to some criteria. -/
def query (c : Criteria) (policy : Policy) : String := FormUrl.write (c.pairs policy)

end Criteria

/-! ## reading -/

/-- A count: digits, perhaps after one plus sign, of a number above zero. -/
def readCount? (raw : String) : Option UInt32 :=
  let digits := match raw.toList with
    | '+' :: cs => cs
    | cs => cs
  (Decimal.uint32? digits).filter (· ≠ 0)

/-- A count, or the default with a warning. -/
def countOr (standard : UInt32) (key raw : String) : UInt32 × List Event :=
  match readCount? raw with
  | some n => (n, [])
  | none => (standard, [.countIgnored key raw])

namespace Criteria

/-- The criteria after one more pair of a query. -/
def readPair (ctx : Context) (c : Criteria) (key raw : String) : Criteria × List Event :=
  if key = pageKey then
    let (n, events) := countOr 1 key raw
    (c.withPage n, events)
  else if key = pageSizeKey then
    let (n, events) := countOr ctx.defaultPageSize key raw
    (c.withPageSize n, events)
  else
    match Filter.recover ctx.catalog key raw with
    | (some f, events) => (c.put f, events)
    | (none, events) => (c.without key, events)

/-- The criteria after the pairs of a query. -/
def readPairs (ctx : Context) : Criteria → List (String × String) → Criteria × List Event
  | c, [] => (c, [])
  | c, (key, raw) :: pairs =>
    let (c', events) := c.readPair ctx key raw
    let (c'', more) := readPairs ctx c' pairs
    (c'', events ++ more)

/-- The criteria that a query asks for, and what was recovered on the way. -/
def ofQuery (ctx : Context) (query : String) : Criteria × List Event :=
  readPairs ctx (blank ctx) (FormUrl.read (dropQuestionMark query))

end Criteria

end ViewFilters
