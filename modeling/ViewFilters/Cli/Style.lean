/-!
# ViewFilters.Cli.Style

Text for a terminal, with or without colours.  A style is switched on before the
text and off after it; where the text itself switches styles off, the style is
switched on again.
-/

namespace ViewFilters.Cli

/-- A way of showing text. -/
inductive Style where
  | bold
  | dimmed
  | green
  | yellow
  /-- Bold and underlined. -/
  | heading

/-- The characters that switch a style on. -/
def Style.opening : Style → List Char
  | bold => ['\x1b', '[', '1', 'm']
  | dimmed => ['\x1b', '[', '2', 'm']
  | green => ['\x1b', '[', '3', '2', 'm']
  | yellow => ['\x1b', '[', '3', '3', 'm']
  | heading => ['\x1b', '[', '1', 'm', '\x1b', '[', '4', 'm']

/-- The characters that switch all styles off. -/
def closing : List Char := ['\x1b', '[', '0', 'm']

/-- A text with a style switched on again after each place that switches it off. -/
def reopened (style : Style) : List Char → List Char
  | [] => []
  | '\x1b' :: '[' :: '0' :: 'm' :: cs => closing ++ style.opening ++ reopened style cs
  | c :: cs => c :: reopened style cs

/-- A text in a style, when colours are wanted. -/
def paint (colors : Bool) (style : Style) (text : String) : String :=
  if colors then String.ofList (style.opening ++ reopened style text.toList ++ closing) else text

/-- A number of spaces. -/
def spaces (n : Nat) : String := String.ofList (List.replicate n ' ')

/-- The spaces that bring a cell to a width.  All cells are ASCII, so that each
character takes one column. -/
def padding (cell : String) (width : Nat) : String := spaces (width - cell.length)

/-- The space between two columns. -/
def columnGap : Nat := 2

/-- The width of a column, with the space after it. -/
def columnWidth (cells : List String) : Nat :=
  (cells.map String.length).foldl max 0 + columnGap

end ViewFilters.Cli
