import ViewFilters.Cli.Command
import ViewFilters.Cli.Report
import ViewFilters.Cli.Surroundings

/-!
# ViewFilters.Cli.Response

What the program answers.  Every command that is given a query mounts a view on
it, as a page does when it is opened; an edit then prints the new query.

A configuration that cannot be loaded, or an edit that fails, ends with code 1
and one line on standard error.
-/

namespace ViewFilters.Cli

/-- What a run of the program does. -/
structure Response where
  code : UInt32
  stdout : String
  stderr : String
  events : List Event
  /-- The configuration file afterwards. -/
  file : ConfigFile

/-! ## commands -/

/-- The answer to an edit of a query. -/
def respondEdit (colors : Bool) (ctx : Context) (file : ConfigFile) (query : String)
    (edit : Edit) : Response :=
  let (v, events) := openView ctx query
  let step := carryOut ctx v edit.actions
  let events := events ++ step.events
  match step.result with
  | .error e => ⟨1, "", errorLine e.message, events, file⟩
  | .ok changed =>
    let note := match edit, changed with
      | .remove field, false => refusalLine colors ctx.policy field
      | _, _ => ""
    ⟨0, line (step.state.query ctx), note, events, file⟩

/-- The answer to a command, with the configuration from a directory's file. -/
def respond (colors : Bool) (config : Config) (dir : String) (file : ConfigFile) :
    Command → Response
  | .show query json =>
    let ctx := config.context
    let (v, events) := openView ctx query
    let text :=
      if json then line (criteriaJson ctx.policy v.editor.criteria).pretty
      else criteriaLines colors ctx.policy v.editor.criteria
    ⟨0, text, "", events, file⟩
  | .api query joined =>
    let (v, events) := openView config.context query
    let json := if joined then v.request.toJoinedJson else v.request.toJson
    ⟨0, line json.pretty, "", events, file⟩
  | .edit query edit => respondEdit colors config.context file query edit
  | .operators none => ⟨0, operatorLines colors Operator.all, "", [], file⟩
  | .operators (some field) =>
    let catalog := config.context.catalog
    let heading := familyLine colors field (catalog.familyOf field)
    ⟨0, heading ++ operatorLines colors (catalog.choices field), "", [], file⟩
  | .config false => ⟨0, line config.toText, "", [], file⟩
  | .config true =>
    match config.save file with
    | .error e => ⟨1, "", errorLine e.message, [], file⟩
    | .ok saved =>
      ⟨0, line config.toText, savedLine colors (joinPath dir fileName), [], saved⟩

/-- A configuration for the project that was named, if one was. -/
def forProject (config : Config) : Option String → Config
  | some project => { config with projectId := some project }
  | none => config

/-- The answer to a command line. -/
def Invocation.respond (env : Surroundings) (i : Invocation) : Response :=
  match env.directory i.configDir with
  | none => ⟨1, "", errorLine ConfigError.noDirectory.message, [], .barred⟩
  | some dir =>
    let file := env.fileIn dir
    match Config.load file with
    | .error e => ⟨1, "", errorLine e.message, [], file⟩
    | .ok config =>
      Cli.respond env.colors (forProject config i.project) dir file i.command

end ViewFilters.Cli
