import Workflow.CommandLine.Basic
import Workflow.View.PlainText

/-!
# The program

The outer layer of the command line: it fetches the files that a command line names, has the command
carried out, and writes what comes of it.
-/

namespace Workflow.CommandLine

/-- The lines of one thing printed. -/
def Printed.lines : Printed → List String
  | .line markup => [plainLine markup]
  | .fault f => ["  " ++ f.message]
  | .tree t => t.lines 0
  | .table t => t.lines
  | .panel text title => [title, plainLine text]

/-- The sentence for a crash. -/
def Crash.message : Crash → String
  | .noDocument f => f.message
  | .badPath => PathFault.nul.message ""
  | .unfit f => f.message
  | .blocked => "File exists: '" ++ configDirectory.text ++ "'"
  | .unprintable => "An integer has more digits than are printed."
  | .deepTree => Yaml.Fault.tooDeep.message
  | .refused _ => "Half a surrogate pair is not printed."

/-- The paths that a request has to do with. -/
def Request.paths : Request → List String
  | .command .init _ _ => [configDirectory.text, configFile.text]
  | .command _ file _ => if file.isEmpty || file.contains '\x00' then [] else [file]
  | .help _ | .programVersion => []

/-- What stands at a path, if anything does. What cannot be read as a file is a directory. -/
def readEntry (path : String) : IO (Option FileEntry) := do
  try
    let content ← IO.FS.readBinFile (Text.shown path)
    return some (.file content)
  catch e =>
    match e with
    | .noFileOrDirectory .. => return none
    | _ => return some .directory

/-- The files at some paths. -/
def readFiles (paths : List String) : IO Files := do
  let mut files : Files := {}
  for path in paths do
    let found :=
      match ← readEntry path with
      | some (.file content) => (files.write (.parse path) content).toOption.getD files
      | some .directory => (files.makeDirectory (.parse path) true).1
      | none => files
    files := found
  return files

/-- Writes the configuration if a command created it. -/
def writeConfig (before after : Files) : IO Unit := do
  match before.find? configFile, after.find? configFile with
  | none, some (.file content) =>
    IO.FS.createDirAll configDirectory.text
    IO.FS.writeBinFile configFile.text content
  | _, _ => pure ()

/-- Carries out a request and answers the exit status. -/
def perform (request : Request) : IO UInt32 := do
  let files ← readFiles request.paths
  let now ← IO.monoMsNow
  let directory ← IO.currentDir
  let c : Context :=
    { files := files, directory := .parse (Text.ofChars directory.toString.toList), now := now }
  match c.perform request with
  | .error e =>
    IO.eprintln ("Error: " ++ Text.shown e.message)
    return 2
  | .ok result =>
    writeConfig files result.files
    for p in result.printed do
      for line in p.lines do
        IO.println line
    IO.print (Text.shown result.output)
    match result.crash? with
    | some crash => IO.eprintln crash.message
    | none => pure ()
    return UInt32.ofNat result.status

end Workflow.CommandLine

/-- Carries out the command line. -/
def main (args : List String) : IO UInt32 := do
  let words := args.map fun word => Workflow.Text.ofChars word.toList
  match Workflow.CommandLine.Request.parse words with
  | .ok request => Workflow.CommandLine.perform request
  | .error e =>
    IO.eprintln ("Error: " ++ Workflow.Text.shown e.message)
    return 2
