import ViewFilters.Json
import ViewFilters.Text.Hexadecimal

/-!
# ViewFilters.Json.Printer

JSON values as text, laid out for people:

```
{
  "filter": [
    "result=passed"
  ],
  "page": 1,
  "tags": []
}
```

Each item and each member has a line of its own, two spaces deeper than its
array or object; an empty one has no lines.  In strings, quotes, backslashes
and characters below U+0020 are escaped and all others stand for themselves.
-/

namespace ViewFilters.Json

/-- A character as it stands in a string. -/
def escapeChar (c : Char) : List Char :=
  if c = '"' then ['\\', '"']
  else if c = '\\' then ['\\', '\\']
  else if c = '\n' then ['\\', 'n']
  else if c = '\r' then ['\\', 'r']
  else if c = '\t' then ['\\', 't']
  else if c = '\x08' then ['\\', 'b']
  else if c = '\x0c' then ['\\', 'f']
  else if c.toNat < 0x20 then
    ['\\', 'u', '0', '0', Hexadecimal.lower (c.toNat / 16), Hexadecimal.lower (c.toNat % 16)]
  else [c]

/-- A string in quotes.  One without a text is written as half a surrogate pair. -/
def quote : Option String → List Char
  | some s => '"' :: s.toList.flatMap escapeChar ++ ['"']
  | none => ['"', '\\', 'u', 'd', '8', '0', '0', '"']

/-- The start of a line at a depth. -/
def newline (depth : Nat) : List Char := '\n' :: List.replicate (2 * depth) ' '

mutual

/-- A value, the lines after the first being at a depth. -/
def layout (depth : Nat) : Json → List Char
  | .null => ['n', 'u', 'l', 'l']
  | .bool true => ['t', 'r', 'u', 'e']
  | .bool false => ['f', 'a', 'l', 's', 'e']
  | .number literal => literal.toList
  | .string text => quote text
  | .array [] => ['[', ']']
  | .array (j :: js) =>
    '[' :: newline (depth + 1) ++ layout (depth + 1) j ++ layoutItems (depth + 1) js ++
      newline depth ++ [']']
  | .object [] => ['{', '}']
  | .object ((k, j) :: ms) =>
    '{' :: newline (depth + 1) ++ quote k ++ [':', ' '] ++ layout (depth + 1) j ++
      layoutMembers (depth + 1) ms ++ newline depth ++ ['}']

/-- The items after the first. -/
def layoutItems (depth : Nat) : List Json → List Char
  | [] => []
  | j :: js => ',' :: newline depth ++ layout depth j ++ layoutItems depth js

/-- The members after the first. -/
def layoutMembers (depth : Nat) : List (Option String × Json) → List Char
  | [] => []
  | (k, j) :: ms =>
    ',' :: newline depth ++ quote k ++ [':', ' '] ++ layout depth j ++ layoutMembers depth ms

end

/-- A value as text, without a newline at the end. -/
def pretty (j : Json) : String := String.ofList (layout 0 j)

end ViewFilters.Json
