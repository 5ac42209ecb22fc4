import ViewFilters.Json
import ViewFilters.Value

/-!
# ViewFilters.Value.Json

Values as JSON: a text is a string, a list is an array of strings and a truth
value is a boolean.  Nothing else is a value.
-/

namespace ViewFilters.Value

/-- A value as JSON. -/
def toJson : Value → Json
  | .text s => Json.ofText s
  | .list items => Json.ofTexts items
  | .flag b => .bool b

/-- The value that JSON stands for. -/
def ofJson? : Json → Option Value
  | .string (some s) => some (.text s)
  | .bool b => some (.flag b)
  | .array items => (Json.texts? (.array items)).map .list
  | _ => none

end ViewFilters.Value
