import ViewFilters.Config
import ViewFilters.Json.Printer
import ViewFilters.Json.Reader
import ViewFilters.Text.Utf8

/-!
# ViewFilters.Config.File

The configuration in its file.  What can stand at the file's place decides what
loading and saving do:

| place     | `load`             | `save`      |
|-----------|--------------------|-------------|
| vacant    | the standard one   | writes      |
| file      | reads              | overwrites  |
| directory | fails              | fails       |
| barred    | the standard one   | fails       |

A file that is read has to be UTF-8, then a configuration, and then one with a
page size above zero.
-/

namespace ViewFilters

/-- What stands where a configuration file should be. -/
inductive ConfigFile where
  /-- Nothing, and a file can be made. -/
  | vacant
  | file (bytes : List UInt8)
  | directory
  /-- Nothing, and no file can be made: something else stands in the way to it. -/
  | barred
  deriving DecidableEq

/-- Why there is no configuration, or why it is not saved. -/
inductive ConfigError where
  /-- The file cannot be read or written, or is not UTF-8. -/
  | inaccessible
  /-- The text is no configuration. -/
  | malformed
  /-- Pages have no room. -/
  | zeroPageSize
  /-- There is no place for the file. -/
  | noDirectory
  deriving DecidableEq

/-- The wording of an error.  A file that cannot be used and a text that is no configuration are
named by their kind alone: what the system or the JSON reader adds to it, after a colon, is left
out. -/
def ConfigError.message : ConfigError → String
  | inaccessible => "IO error"
  | malformed => "Serialization error"
  | zeroPageSize => "Config error: default_page_size must be at least 1"
  | noDirectory => "Config error: could not determine a config directory"

namespace Config

/-- A configuration that can be used. -/
def validate (config : Config) : Except ConfigError Config :=
  if config.defaultPageSize = 0 then .error .zeroPageSize else .ok config

/-- The configuration of a text. -/
def ofText (text : String) : Except ConfigError Config :=
  match (Json.read? text).bind ofJson? with
  | some config => config.validate
  | none => .error .malformed

/-- The configuration of a file. -/
def load : ConfigFile → Except ConfigError Config
  | .vacant | .barred => .ok standard
  | .directory => .error .inaccessible
  | .file bytes =>
    match Utf8.decode? bytes with
    | some text => ofText (String.ofList text)
    | none => .error .inaccessible

/-- The text of a configuration. -/
def toText (config : Config) : String := config.toJson.pretty

/-- The file after a configuration is saved. -/
def save (config : Config) : ConfigFile → Except ConfigError ConfigFile
  | .vacant | .file _ => .ok (.file (Utf8.encode config.toText.toList))
  | .directory | .barred => .error .inaccessible

end Config

end ViewFilters
