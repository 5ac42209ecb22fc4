import ViewFilters.Operator

/-!
# ViewFilters.Field

Fields and their families.  A family decides which operators may be used on a
field.  A catalog lists the fields of the three special families; every other
field is free text and takes every operator, since the data behind a view is
open-ended.
-/

namespace ViewFilters

/-- The kind of data that a field holds. -/
inductive Family where
  | string
  | numeric
  | array
  | boolean
  deriving DecidableEq

namespace Family

/-- The name of a family. -/
def name : Family → String
  | string => "string"
  | numeric => "numeric"
  | array => "array"
  | boolean => "boolean"

/-- Whether an operator may be used on the fields of a family. -/
def allows : Family → Operator → Bool
  | string, _ => true
  | numeric, op => op ≠ .contains
  | array, op => op = .eq || op = .isIn || op = .contains || op = .present
  | boolean, op => op = .eq || op = .ne || op = .present

/-- The operators of a family, in the order in which choices are offered. -/
def operators (family : Family) : List Operator := Operator.all.filter family.allows

/-- Every family takes equality. -/
theorem allows_eq (family : Family) : family.allows .eq = true := by cases family <;> rfl

end Family

/-- The key of the page number in a link. -/
def pageKey : String := "page"

/-- The key of the page size in a link. -/
def pageSizeKey : String := "pageSize"

/-- Keys of a link that say which page is shown; no field goes by these names. -/
def isReserved (key : String) : Bool := key = pageKey || key = pageSizeKey

/-- The fields that are not free text, by family. -/
structure Catalog where
  numeric : List String
  array : List String
  boolean : List String

namespace Catalog

/-- A catalog without special fields. -/
def empty : Catalog := ⟨[], [], []⟩

/-- The fields that are known from the start. -/
def builtin : Catalog where
  numeric := ["duration", "start_time", "summary.tests", "summary.failures", "summary.errors",
    "summary.skips", "summary.xfailures", "summary.xpasses", "metadata.jenkins.build_number"]
  array := ["metadata.tags", "metadata.markers"]
  boolean := ["metadata.flaky", "metadata.skip_report"]

/-- The catalog with more fields in its families. -/
def extend (catalog : Catalog) (numeric array boolean : List String) : Catalog :=
  ⟨catalog.numeric ++ numeric, catalog.array ++ array, catalog.boolean ++ boolean⟩

/-- The family of a field.  Of several families that list the field, numeric
comes before array and array before boolean. -/
def familyOf (catalog : Catalog) (field : String) : Family :=
  if field ∈ catalog.numeric then .numeric
  else if field ∈ catalog.array then .array
  else if field ∈ catalog.boolean then .boolean
  else .string

/-- Whether an operator may be used on a field. -/
def isLegal (catalog : Catalog) (field : String) (op : Operator) : Bool :=
  (catalog.familyOf field).allows op

/-- The operators that may be used on a field, in the order of choices. -/
def choices (catalog : Catalog) (field : String) : List Operator :=
  (catalog.familyOf field).operators

/-- Equality may be used on every field. -/
theorem isLegal_eq (catalog : Catalog) (field : String) : catalog.isLegal field .eq = true :=
  Family.allows_eq _

end Catalog

end ViewFilters
