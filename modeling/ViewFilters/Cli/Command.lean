import ViewFilters.Cli.Edit
import ViewFilters.Cli.Help

/-!
# ViewFilters.Cli.Command

How a command line is read.  The common switches may stand before the command or
after it; of two values the one after it counts.  In one place a switch may stand
once.

A question about the program is answered if the words before it could be read.
Whether the last value before the command can be used is seen only after the
words behind the command, so it does not bar their question.
-/

namespace ViewFilters.Cli

/-- A command. -/
inductive Command where
  | show (query : String) (json : Bool)
  | api (query : String) (joined : Bool)
  | edit (query : String) (edit : Edit)
  | operators (field : Option String)
  | config (save : Bool)
  deriving DecidableEq

/-- A command with the common switches. -/
structure Invocation where
  configDir : Option String
  project : Option String
  verbose : Bool
  command : Command
  deriving DecidableEq

/-- What a command line wants. -/
inductive Wish where
  | run (i : Invocation)
  | notice (n : Notice)

/-- A value that need not be given, but has to be readable if it is. -/
def optional? {α : Type} (read : String → Option α) : Option String → Option (Option α)
  | none => some none
  | some text => (read text).map some

/-- The command of a kind and arguments. -/
def Command.ofArguments? (verb : Verb) (arguments : List Argument) : Option Command :=
  match verb, operands arguments with
  | .show, [query] => some (.show query (hasSwitch arguments .json))
  | .api, [query] => some (.api query (hasSwitch arguments .joined))
  | .set, query :: field :: operator :: values =>
    some (.edit query (.set field operator values))
  | .remove, [query, field] => some (.edit query (.remove field))
  | .clear, [query] => some (.edit query .clear)
  | .page, [query, page] => do
    let number ← number? page
    let size ← optional? number? (valueOf? arguments .size)
    some (.edit query (.page number size))
  | .operators, [] => some (.operators none)
  | .operators, [field] => some (.operators (some field))
  | .config, [] => some (.config (hasSwitch arguments .save))
  | _, _ => none

/-- A command with the common switches before it and all that stands after it. -/
def Invocation.ofArguments? (before : List Argument) (verb : Verb) (after : List Argument) :
    Option Invocation := do
  let command ← Command.ofArguments? verb after
  some {
    configDir := (valueOf? after .configDir).or (valueOf? before .configDir)
    project := (valueOf? after .project).or (valueOf? before .project)
    verbose := hasSwitch after .verbose || hasSwitch before .verbose
    command }

/-- The words from a command on, after common switches. -/
def Wish.ofCommand? (before : Leading) (verb : Verb) (words : List String) : Option Wish := do
  let after ← readAll? (Switch.common ++ verb.switches ++ [.help]) none words
  if verb.admits after then
    match question? after with
    | some q =>
      if areUsable before.settled then some (.notice (q.about (.command verb))) else none
    | none =>
      if areUsable before.arguments then
        (Invocation.ofArguments? before.arguments verb after).map .run
      else none
  else none

/-- The words after `help`: a command, or nothing. -/
def Topic.ofWords? : List String → Option Topic
  | [] => some .program
  | [name] => if name = Topic.helpName then some .help else (Verb.ofName? name).map .command
  | _ => none

/-- The command line of the given words. -/
def Wish.ofWords? (words : List String) : Option Wish := do
  let before ← readLeading? (Switch.common ++ [.help, .version]) none words
  if areUsable before.settled then
    match question? before.arguments, before.rest with
    | some q, _ => some (.notice (q.about .program))
    | none, [] => none
    | none, name :: rest =>
      if name = Topic.helpName then
        (Topic.ofWords? rest).map fun topic => .notice (.help topic true)
      else do
        let verb ← Verb.ofName? name
        ofCommand? before verb rest
  else none

end ViewFilters.Cli
