/-!
# ViewFilters.Operator

The nine comparison operators of a filter.  Each has a name for links
(`[in]`), a mark for backend tokens (`result*failed`), a mode that says what
shape of value it takes, and a label to show.  `Operator.all` lists them in
the order in which choices are offered.
-/

namespace ViewFilters

/-- The shape of value that an operator takes. -/
inductive Mode where
  /-- One text. -/
  | single
  /-- A list of texts. -/
  | multi
  /-- A truth value. -/
  | bool
  deriving DecidableEq

/-- The name of a mode. -/
def Mode.name : Mode → String
  | .single => "single"
  | .multi => "multi"
  | .bool => "bool"

/-- How a filter compares a field with its value. -/
inductive Operator where
  | eq
  | ne
  | gt
  | lt
  | gte
  | lte
  | isIn
  | contains
  | present
  deriving DecidableEq

namespace Operator

/-- Every operator, in the order in which choices are offered. -/
def all : List Operator := [eq, ne, gt, lt, gte, lte, isIn, contains, present]

/-- The name in links and on the command line. -/
def name : Operator → String
  | eq => "eq"
  | ne => "ne"
  | gt => "gt"
  | lt => "lt"
  | gte => "gte"
  | lte => "lte"
  | isIn => "in"
  | contains => "contains"
  | present => "exists"

/-- The character that stands between field and value in a backend token. -/
def mark : Operator → Char
  | eq => '='
  | ne => '!'
  | gt => '>'
  | lt => '<'
  | gte => ')'
  | lte => '('
  | isIn => '*'
  | contains => '~'
  | present => '@'

/-- The shape of value that the operator takes. -/
def mode : Operator → Mode
  | isIn => .multi
  | present => .bool
  | _ => .single

/-- The words that stand between field and value for a reader. -/
def label : Operator → String
  | eq => "is"
  | ne => "is not"
  | gt => "greater than"
  | lt => "less than"
  | gte => "at least"
  | lte => "at most"
  | isIn => "is one of"
  | contains => "contains"
  | present => "exists"

/-- The operator that stands in for a missing or unknown one. -/
def fallback : Operator := eq

/-- The operator of a name. -/
def ofName? (name : String) : Option Operator := all.find? fun op => op.name = name

/-! ## names -/

theorem mem_all (op : Operator) : op ∈ all := by cases op <;> decide

theorem ofName?_name (op : Operator) : ofName? op.name = some op := by cases op <;> decide

/-- Only its own name gives an operator. -/
theorem name_of_ofName? {name : String} {op : Operator} (h : ofName? name = some op) :
    op.name = name := by
  simpa using List.find?_some h

end Operator

end ViewFilters
