import ViewFilters.Cli.Style
import ViewFilters.Criteria.Link
import ViewFilters.Json.Printer
import ViewFilters.Value.Json

/-!
# ViewFilters.Cli.Report

What the program prints, as whole lines: filters in words or as JSON, tables of
operators, notes and errors.
-/

namespace ViewFilters.Cli

/-- A line of output. -/
def line (text : String) : String := text ++ "\n"

/-! ## filters -/

/-- A filter in words.  One that cannot be removed stands out. -/
def chipLine (colors : Bool) (policy : Policy) (f : Filter) : String :=
  let text := "  ● " ++ f.chip
  line (if policy.isProtected f.field then paint colors .yellow text else text)

/-- The page in words. -/
def pageLine (colors : Bool) (p : Pagination) : String :=
  line (paint colors .dimmed ("page " ++ Decimal.text p.page.toNat ++ ", " ++
    Decimal.text p.size.toNat ++ " per page"))

/-- The filters in words, a line each, and the page. -/
def criteriaLines (colors : Bool) (policy : Policy) (c : Criteria) : String :=
  let chips := match c.filters with
    | [] => line (paint colors .dimmed "No filters.")
    | filters => String.join (filters.map (chipLine colors policy))
  chips ++ pageLine colors c.pagination

/-- A filter as JSON. -/
def filterJson (f : Filter) : Json :=
  Json.ofMembers [("field", Json.ofText f.field), ("operator", Json.ofText f.operator.name),
    ("value", f.value.toJson)]

/-- Criteria and their link as JSON. -/
def criteriaJson (policy : Policy) (c : Criteria) : Json :=
  Json.ofMembers [("filters", .array (c.filters.map filterJson)),
    ("page", Json.ofNat c.page.toNat), ("pageSize", Json.ofNat c.pageSize.toNat),
    ("query", Json.ofText (c.query policy))]

/-! ## operators -/

/-- A row of a table of operators: name, mark, label and mode. -/
def operatorLine (colors : Bool) (nameWidth labelWidth : Nat) (op : Operator) : String :=
  line (spaces columnGap ++ paint colors .bold op.name ++ padding op.name nameWidth ++
    paint colors .yellow (String.singleton op.mark) ++ spaces (columnGap + 1) ++
    op.label ++ padding op.label labelWidth ++ paint colors .dimmed op.mode.name)

/-- A table of operators. -/
def operatorLines (colors : Bool) (ops : List Operator) : String :=
  String.join (ops.map (operatorLine colors (columnWidth (ops.map Operator.name))
    (columnWidth (ops.map Operator.label))))

/-- A field and its family. -/
def familyLine (colors : Bool) (field : String) (family : Family) : String :=
  line (paint colors .bold field ++ " " ++ paint colors .dimmed ("(" ++ family.name ++ ")"))

/-! ## notes -/

/-- Why a filter was not removed. -/
def refusalLine (colors : Bool) (policy : Policy) (field : String) : String :=
  let reason := if policy.isProtected field then "is protected" else "is not set"
  line (paint colors .yellow ("Filter on '" ++ field ++ "' " ++ reason))

/-- Where the configuration was saved. -/
def savedLine (colors : Bool) (path : String) : String :=
  line (paint colors .green ("Saved " ++ path))

/-- An error. -/
def errorLine (message : String) : String := line ("Error: " ++ message)

/-! ## the log -/

/-- A piece of data attached to an event. -/
def datumText (name : String) : Datum → String
  | .text s => " " ++ name ++ "=" ++ String.ofList (Json.quote (some s))
  | .number n => " " ++ name ++ "=" ++ Decimal.text n

/-- An event as a line of the log. -/
def logLine (e : Event) : String :=
  line (e.level.name ++ ": " ++ e.message ++
    String.join (e.data.map fun d => datumText d.1 d.2))

/-- The log of some events: the warnings, and when asked for also the rest. -/
def logLines (verbose : Bool) (events : List Event) : String :=
  String.join ((events.filter fun e => verbose || e.level = .warn).map logLine)

end ViewFilters.Cli
