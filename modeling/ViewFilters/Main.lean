import ViewFilters.Cli.Response

/-!
# ViewFilters.Main

The program: the surroundings are looked up, the answer is worked out
(`ViewFilters.Cli.Response`), and what it says is printed and saved.
-/

namespace ViewFilters.Program

/-- The user's directory for the configuration. -/
def userConfigDir : IO (Option String) := do
  let name := "runfilter"
  match ← IO.getEnv "XDG_CONFIG_HOME", ← IO.getEnv "HOME" with
  | some dir, _ => return some (Cli.joinPath dir name)
  | none, some home => return some (Cli.joinPath (Cli.joinPath home ".config") name)
  | none, none => return none

/-- What stands at the configuration file of a directory. -/
def readConfig (dir : String) : IO ConfigFile := do
  let path := (← IO.currentDir) / Cli.joinPath dir Cli.fileName
  try
    return .file (← IO.FS.readBinFile path).toList
  catch
    | .noFileOrDirectory .. => return .vacant
    | _ => return if ← path.pathExists then .directory else .barred

/-- Write the configuration file of a directory. -/
def writeConfig (dir : String) (bytes : List UInt8) : IO Unit := do
  let folder := (← IO.currentDir) / dir
  IO.FS.createDirAll folder
  IO.FS.writeBinFile (folder / Cli.fileName) ⟨bytes.toArray⟩

/-- Whether standard output is to be coloured. -/
def wantsColors : IO Bool := do
  let isOn (value : String) : Bool := value ≠ "0"
  if (← IO.getEnv "CLICOLOR_FORCE").any isOn then return true
  if (← IO.getEnv "NO_COLOR").any isOn then return false
  return (← IO.getEnv "CLICOLOR").all isOn && (← (← IO.getStdout).isTty)

/-- Print the answer to a command line, and save what it wants saved. -/
def answer (i : Cli.Invocation) : IO UInt32 := do
  let cwd ← IO.currentDir
  let env : Cli.Surroundings := {
    colors := ← wantsColors
    workingDir := cwd.toString
    hasLocal := ← (cwd / Cli.localName).isDir
    userDir := ← userConfigDir
    fileIn := fun _ => .vacant }
  let dir := env.directory i.configDir
  let file ← (dir.map readConfig).getD (pure .vacant)
  let response := i.respond { env with fileIn := fun _ => file }
  try
    match dir, response.file with
    | some dir, .file bytes => unless response.file = file do writeConfig dir bytes
    | _, _ => pure ()
  catch _ =>
    (← IO.getStderr).putStr (Cli.errorLine ConfigError.inaccessible.message)
    return 1
  (← IO.getStderr).putStr (Cli.logLines i.verbose response.events ++ response.stderr)
  (← IO.getStdout).putStr response.stdout
  return response.code

end ViewFilters.Program

open ViewFilters in
/-- Run the program.  A command line that cannot be read ends with code 2. -/
def main (args : List String) : IO UInt32 := do
  match Cli.Wish.ofWords? args with
  | some (.run i) => Program.answer i
  | some (.notice n) =>
    (← IO.getStdout).putStr (n.text (← Program.wantsColors))
    return 0
  | none =>
    (← IO.getStderr).putStr ((Cli.Notice.help .program false).text false)
    return 2
