import ViewFilters.Config.File
import ViewFilters.FileTree

/-!
# ViewFilters.Cli.Surroundings

Where the program runs, and where its configuration is: in the directory that is
named, else in the local one if it exists, else in the user's.
-/

namespace ViewFilters.Cli

/-- Where the program runs. -/
structure Surroundings where
  colors : Bool
  /-- The current directory. -/
  workingDir : String
  /-- Whether the current directory has a directory for the configuration. -/
  hasLocal : Bool
  /-- The user's directory for the configuration. -/
  userDir : Option String
  /-- What stands at the configuration file of a directory. -/
  fileIn : String → ConfigFile

/-- The name of the directory for the configuration in the current directory. -/
def localName : String := ".runfilter"

/-- The name of the configuration file. -/
def fileName : String := "config.json"

/-- The path of a name in a directory. -/
def joinPath (dir name : String) : String :=
  if dir.toList.getLast? = some '/' then dir ++ name else dir ++ "/" ++ name

/-- The directory of the configuration. -/
def Surroundings.directory (env : Surroundings) (named : Option String) : Option String :=
  match named with
  | some dir => some dir
  | none => if env.hasLocal then some (joinPath env.workingDir localName) else env.userDir

/-! ## files in memory -/

/-- The way to the directory for a configuration file. -/
def way? (tree : FileTree) (workingDir dir : String) : Option FileTree.Walk :=
  if FileTree.pathLimit < (joinPath dir fileName).utf8ByteSize then none
  else tree.destination? (FileTree.names workingDir) dir

/-- What stands at the configuration file of a directory.  Where a directory is
missing on the way, the file is not found, whatever the rest of the way leads to;
and it cannot be written if one of the directories made on the way has its name. -/
def findConfig (tree : FileTree) (workingDir dir : String) : ConfigFile :=
  match way? tree workingDir dir with
  | none => .barred
  | some w =>
    let place := w.place ++ [fileName]
    match w.tree.isDirectory place, w.found with
    | true, true => .directory
    | true, false => .barred
    | false, true => (tree.file? place).elim .vacant .file
    | false, false => .vacant

/-- The tree after a configuration file is written. -/
def writeConfig (tree : FileTree) (workingDir dir : String) (bytes : List UInt8) : FileTree :=
  match way? tree workingDir dir with
  | none => tree
  | some w => w.tree.write (w.place ++ [fileName]) bytes

/-- The surroundings that a tree makes. -/
def Surroundings.ofTree (tree : FileTree) (colors : Bool) (workingDir : String)
    (userDir : Option String) : Surroundings where
  colors
  workingDir
  hasLocal := ((tree.follow? [] (joinPath workingDir localName)).map (·.found)).getD false
  userDir
  fileIn := findConfig tree workingDir

end ViewFilters.Cli
