import ViewFilters.Cli.Style
import ViewFilters.Cli.Verb

/-!
# ViewFilters.Cli.Help

What the program says about itself.  A page has a paragraph, the usage, and lists:

```
Remove a filter and print the new query

Usage: runfilter remove [OPTIONS] <QUERY> <FIELD>

Arguments:
  <QUERY>
  <FIELD>
…
```

1. In brief, an explanation stands beside what it explains, in one column for the
   whole list; what has none is followed by the space for it all the same.
2. In full, it stands on a line of its own, and blank lines part the entries.
   Only commands are listed in brief even then.
3. A page that has no more to say than its paragraph is always brief.
-/

namespace ViewFilters.Cli

/-! ## lists -/

/-- A piece of text, perhaps in a style. -/
structure Span where
  text : String
  style : Option Style := none

/-- A piece of text in its style, when colours are wanted. -/
def Span.painted (colors : Bool) (s : Span) : String :=
  s.style.elim s.text fun style => paint colors style s.text

/-- An entry of a list. -/
structure Entry where
  label : List Span
  explanation : String

namespace Entry

/-- The columns that the label takes. -/
def width (e : Entry) : Nat := (e.label.map fun s => s.text.length).foldl (· + ·) 0

/-- The label, after the margin. -/
def margin (colors : Bool) (e : Entry) : String :=
  spaces columnGap ++ String.join (e.label.map (Span.painted colors))

/-- The entry in a line, with its explanation in a column. -/
def brief (colors : Bool) (column : Nat) (e : Entry) : String :=
  e.margin colors ++ spaces (column - e.width) ++ e.explanation

/-- The space before an explanation on a line of its own. -/
def indentation : Nat := 10

/-- The entry in two lines. -/
def full (colors : Bool) (e : Entry) : String :=
  e.margin colors ++ "\n" ++ spaces indentation ++ e.explanation

/-- Entries under a heading. -/
def list (colors isFull : Bool) (heading : String) (entries : List Entry) : String :=
  let column := (entries.map width).foldl max 0 + columnGap
  paint colors .heading (heading ++ ":") ++ "\n" ++
    if isFull then "\n\n".intercalate (entries.map (full colors))
    else "\n".intercalate (entries.map (brief colors column))

end Entry

/-! ## switches, operands and commands -/

/-- What a switch does.  A page that can be longer says how to see the rest. -/
def Switch.explanation (isLong isFull : Bool) : Switch → String
  | configDir => "Directory holding config.json"
  | project => "Scope the view to a project"
  | verbose => "Log debug output to stderr"
  | json => "Print as JSON"
  | joined => "Send filters as one comma-joined parameter"
  | size => "Change the page size (goes back to page 1 first)"
  | save => "Write it to config.json"
  | help =>
    match isLong, isFull with
    | false, _ => "Print help"
    | true, false => "Print help (see more with '--help')"
    | true, true => "Print help (see a summary with '-h')"
  | version => "Print version"

/-- How a switch is written.  The names of a list stand in one column, whether
there are letters before them or not. -/
def Switch.label (s : Switch) : List Span :=
  let letter : List Span := match s.letter? with
    | some c => [⟨String.ofList ['-', c], some .bold⟩, ⟨", ", none⟩]
    | none => [⟨"    ", none⟩]
  let value : List Span := s.valueName?.toList.map fun name => ⟨" <" ++ name ++ ">", none⟩
  letter ++ [⟨"--" ++ s.name, some .bold⟩] ++ value

/-- How an operand is written. -/
def Operand.label (o : Operand) : String :=
  (if o.required then "<" ++ o.name ++ ">" else "[" ++ o.name ++ "]") ++
    (if o.repeated then "..." else "")

/-- What a command does. -/
def Verb.explanation : Verb → String
  | .show => "Show the active filters and pagination"
  | .api => "Print the backend request parameters"
  | .set => "Set a filter and print the new query"
  | .remove => "Remove a filter and print the new query"
  | .clear => "Remove all filters except pinned ones"
  | .page => "Go to a page and print the new query"
  | .operators => "List the operators, or those legal for one field"
  | .config => "Print the effective configuration"

/-! ## pages -/

/-- What a page is about. -/
inductive Topic where
  | program
  | command (verb : Verb)
  /-- The help itself. -/
  | help
  deriving DecidableEq

namespace Topic

/-- The name of the program. -/
def programName : String := "runfilter"

/-- The command that asks for help. -/
def helpName : String := "help"

/-- The words that the usage begins with. -/
def title : Topic → String
  | program => programName
  | command verb => programName ++ " " ++ verb.name
  | help => programName ++ " " ++ helpName

/-- What it does. -/
def explanation : Topic → String
  | program => "Inspect and edit test-result filter URLs"
  | command verb => verb.explanation
  | help => "Print this message or the help of the given subcommand(s)"

/-- What a full page says instead. -/
def details? : Topic → Option String
  | program => some ("Every command takes the view's current query string " ++
      "(the part of the URL after '?') and prints what the dashboard would do with it.")
  | command .set => some ((Verb.explanation .set) ++ "\n\n" ++
      "Several values are joined for \x60in\x60. No value removes the filter.")
  | _ => none

/-- What can be given, with what it is for. -/
def operands : Topic → List (Operand × String)
  | program => []
  | command verb => verb.operands.map fun o => (o, "")
  | help => [({ name := "COMMAND", required := false, repeated := true },
      "Print help for the subcommand(s)")]

/-- The switches that belong to the topic alone. -/
def switches : Topic → List Switch
  | program => [.help, .version]
  | command verb => verb.switches ++ [.help]
  | help => []

/-- The switches that belong to other topics too. -/
def shared : Topic → List Switch
  | program | command _ => Switch.common
  | help => []

/-- The commands that can be given, as entries. -/
def commands : Topic → List Entry
  | program =>
    Verb.all.map (fun verb => ⟨[⟨verb.name, some .bold⟩], verb.explanation⟩) ++
      [⟨[⟨helpName, some .bold⟩], help.explanation⟩]
  | command _ | help => []

/-- How it is used, in a line. -/
def usage (colors : Bool) (t : Topic) : String :=
  let options := if t.shared.isEmpty then [] else ["[OPTIONS]"]
  let command := if t.commands.isEmpty then [] else ["<COMMAND>"]
  " ".intercalate ([paint colors .heading "Usage:", paint colors .bold t.title] ++ options ++
    (t.operands.map fun o => o.1.label) ++ command)

/-- The page on a topic. -/
def page (colors isFull : Bool) (t : Topic) : String :=
  let isLong := t.details?.isSome
  let isFull := isFull && isLong
  let ofSwitch (s : Switch) : Entry := ⟨s.label, s.explanation isLong isFull⟩
  let ofOperand (o : Operand × String) : Entry := ⟨[⟨o.1.label, none⟩], o.2⟩
  let listing (full : Bool) (heading : String) (entries : List Entry) : List String :=
    if entries.isEmpty then [] else [Entry.list colors full heading entries]
  let paragraph := if isFull then t.details?.getD t.explanation else t.explanation
  "\n\n".intercalate ([paragraph, t.usage colors] ++
    listing false "Commands" t.commands ++
    listing isFull "Arguments" (t.operands.map ofOperand) ++
    listing isFull "Options" (t.switches.map ofSwitch) ++
    listing isFull "Options" (t.shared.map ofSwitch)) ++ "\n"

end Topic

/-! ## notices -/

/-- What the program can say about itself. -/
inductive Notice where
  | help (topic : Topic) (full : Bool)
  | version
  deriving DecidableEq

/-- A question, asked where a topic is at hand. -/
def Question.about (topic : Topic) : Question → Notice
  | .help full => .help topic full
  | .version => .version

/-- The version of the program. -/
def versionNumber : String := "0.3.2"

/-- The text of a notice. -/
def Notice.text (colors : Bool) : Notice → String
  | .help topic full => topic.page colors full
  | .version => Topic.programName ++ " " ++ versionNumber ++ "\n"

end ViewFilters.Cli
