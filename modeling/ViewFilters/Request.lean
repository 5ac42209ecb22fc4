import ViewFilters.Criteria
import ViewFilters.Json

/-!
# ViewFilters.Request

What is asked of the backend: one token per filter and the page.  In a URL the
tokens are either a `filter` pair each or all in one, with commas between them.
-/

namespace ViewFilters

/-- The parameters of a request. -/
structure Request where
  filter : List String
  page : UInt32
  pageSize : UInt32
  deriving DecidableEq

/-- How the tokens of a request are spread over URL pairs. -/
inductive TokenLayout where
  /-- A pair for each token. -/
  | separate
  /-- One pair for all tokens. -/
  | joined
  deriving DecidableEq

namespace Request

/-- The request for some criteria. -/
def ofCriteria (c : Criteria) : Request := ⟨c.filters.map Filter.token, c.page, c.pageSize⟩

/-- The request for the first page of some filters, at the usual size. -/
def firstPage (ctx : Context) (filters : Selection) : Request :=
  ofCriteria ⟨filters, ⟨1, ctx.defaultPageSize⟩⟩

/-- The key of the tokens. -/
def filterKey : String := "filter"

/-! ## as URL pairs -/

/-- The tokens in one text. -/
def joinedFilter (r : Request) : String := joinTexts ',' r.filter

/-- The texts that the tokens are sent as. -/
def filterTexts (r : Request) : TokenLayout → List String
  | .separate => r.filter
  | .joined => [r.joinedFilter]

/-- The URL pairs of a request. -/
def pairs (r : Request) (layout : TokenLayout) : List (String × String) :=
  (r.filterTexts layout).map (fun token => (filterKey, token)) ++
    [(pageKey, Decimal.text r.page.toNat), (pageSizeKey, Decimal.text r.pageSize.toNat)]

/-! ## as JSON -/

/-- The members of a request, in order. -/
def memberNames : List String := [filterKey, pageKey, pageSizeKey]

/-- A request as a JSON record. -/
def toJson (r : Request) : Json :=
  Json.ofMembers [(filterKey, Json.ofTexts r.filter), (pageKey, Json.ofNat r.page.toNat),
    (pageSizeKey, Json.ofNat r.pageSize.toNat)]

/-- A request with its tokens in one text, as a JSON record. -/
def toJoinedJson (r : Request) : Json :=
  Json.ofMembers [(filterKey, Json.ofText r.joinedFilter), (pageKey, Json.ofNat r.page.toNat),
    (pageSizeKey, Json.ofNat r.pageSize.toNat)]

/-- The request of a JSON record, which has to have every member. -/
def ofJson? (j : Json) : Option Request :=
  match j.record? memberNames with
  | some [some filter, some page, some pageSize] => do
    let filter ← filter.texts?
    let page ← page.uint32?
    let pageSize ← pageSize.uint32?
    some ⟨filter, page, pageSize⟩
  | _ => none

end Request

end ViewFilters
