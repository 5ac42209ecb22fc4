import ViewFilters.Text.Pieces
import ViewFilters.Error

/-!
# ViewFilters.Value

What a filter compares with.  A value has one of three shapes, and each mode
wants one of them:

| mode   | shape | from a text         | from a list    | from a truth value |
|--------|-------|---------------------|----------------|--------------------|
| single | text  |                     | joined by `;`  | `true` or `false`  |
| multi  | list  | cut at `;`          |                | a list of one      |
| bool   | flag  | `true`, `false` [1] | refused        |                    |

[1] In any mixture of upper and lower case.

List elements are not escaped: one that holds a `;` does not come back whole.
-/

namespace ViewFilters

/-- The character between the elements of a list value in its text. -/
def listSeparator : Char := ';'

/-- The elements of a list value's text. -/
def splitList (raw : String) : List String := splitText listSeparator raw

/-- The text of a list value. -/
def joinList (items : List String) : String := joinTexts listSeparator items

/-- What a filter compares with. -/
inductive Value where
  | text (s : String)
  | list (items : List String)
  | flag (b : Bool)
  deriving DecidableEq

/-- The text of a truth value. -/
def flagText (b : Bool) : String := if b then "true" else "false"

/-- The text with its ASCII letters in lower case. -/
def asciiLower (s : String) : String := String.ofList (s.toList.map Char.toLower)

namespace Value

/-- The value that raw input stands for, under an operator of the given mode.
A truth value stays text until a filter is built from it. -/
def parse : Mode → String → Value
  | .multi, raw => .list (splitList raw)
  | .single, raw | .bool, raw => .text raw

/-- An empty value asks for no filter. -/
def isEmpty : Value → Bool
  | .text s => s = ""
  | .list items => items.all fun s => s = ""
  | .flag _ => false

/-- The text of a value. -/
def render : Value → String
  | .text s => s
  | .list items => joinList items
  | .flag b => flagText b

/-- The text of a value for a reader, with the elements of a list set apart. -/
def display : Value → String
  | .list items => ", ".intercalate items
  | v => v.render

/-- The elements, when the value is a list. -/
def items? : Value → Option (List String)
  | .list items => some items
  | _ => none

/-- The value in the shape that a mode wants. -/
def coerce : Mode → Value → Except ValueFault Value
  | .multi, .text s => .ok (.list (splitList s))
  | .multi, .list items => .ok (.list items)
  | .multi, .flag b => .ok (.list [flagText b])
  | .single, v => .ok (.text v.render)
  | .bool, .text s =>
    if asciiLower s = "true" then .ok (.flag true)
    else if asciiLower s = "false" then .ok (.flag false)
    else .error (.notBoolean s)
  | .bool, .list _ => .error .listAsBoolean
  | .bool, .flag b => .ok (.flag b)

end Value

end ViewFilters
