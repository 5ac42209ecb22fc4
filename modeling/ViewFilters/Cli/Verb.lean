import ViewFilters.Cli.Switch

/-!
# ViewFilters.Cli.Verb

The commands of the program by name, with what each takes:

```
show QUERY [--json]            clear QUERY
api QUERY [--joined]           page QUERY N [--size N]
set QUERY FIELD OP [VALUES…]   operators|ops [FIELD]
remove|rm QUERY FIELD          config [--save]
```
-/

namespace ViewFilters.Cli

/-- What a command takes besides switches. -/
structure Operand where
  name : String
  required : Bool := true
  /-- Whether it may stand many times. -/
  repeated : Bool := false
  isNumber : Bool := false

/-- Whether texts can stand for operands, as far as they go. -/
def Operand.fit : List Operand → List String → Bool
  | _, [] => true
  | [], _ :: _ => false
  | o :: os, text :: texts =>
    (!o.isNumber || (number? text).isSome) && fit (if o.repeated then o :: os else os) texts

/-- A kind of command. -/
inductive Verb where
  | show
  | api
  | set
  | remove
  | clear
  | page
  | operators
  | config
  deriving DecidableEq

namespace Verb

/-- All kinds, in the order in which they are listed. -/
def all : List Verb := [.show, .api, .set, .remove, .clear, .page, .operators, .config]

/-- The name on the command line. -/
def name : Verb → String
  | .show => "show"
  | .api => "api"
  | .set => "set"
  | .remove => "remove"
  | .clear => "clear"
  | .page => "page"
  | .operators => "operators"
  | .config => "config"

/-- A shorter name. -/
def alias? : Verb → Option String
  | .remove => some "rm"
  | .operators => some "ops"
  | _ => none

/-- The kind of a name. -/
def ofName? (name : String) : Option Verb :=
  all.find? fun v => v.name = name || v.alias? = some name

/-- What the command takes, in order. -/
def operands : Verb → List Operand
  | .show | .api | .clear => [{ name := "QUERY" }]
  | .set => [{ name := "QUERY" }, { name := "FIELD" }, { name := "OPERATOR" },
      { name := "VALUES", required := false, repeated := true }]
  | .remove => [{ name := "QUERY" }, { name := "FIELD" }]
  | .page => [{ name := "QUERY" }, { name := "PAGE", isNumber := true }]
  | .operators => [{ name := "FIELD", required := false }]
  | .config => []

/-- The switches that the command takes besides the common ones. -/
def switches : Verb → List Switch
  | .show => [.json]
  | .api => [.joined]
  | .page => [.size]
  | .config => [.save]
  | .set | .remove | .clear | .operators => []

/-- Whether arguments can stand after the name, as far as they go. -/
def admits (v : Verb) (arguments : List Argument) : Bool :=
  areUsable arguments && Operand.fit v.operands (Cli.operands arguments)

end Verb

end ViewFilters.Cli
