import Workflow.CommandLine.Help
import Workflow.Config.File
import Workflow.Graph.Dump
import Workflow.Graph.Problem
import Workflow.Graph.Reading
import Workflow.Run.Basic
import Workflow.Storage.Files
import Workflow.Text.Quoted
import Workflow.Text.Utf8
import Workflow.View.TraceTable
import Workflow.View.Tree
import Workflow.Yaml.Reader

/-!
# Commands

What the commands of the program do: each is a function from the files it finds to what it prints,
its exit status, and the files it leaves. How far a command gets also depends on what it is carried
out with: a reader of YAML, a console that does not print everything, and a stack that ends.
-/

namespace Workflow.CommandLine

/-- One thing printed. -/
inductive Printed where
  /-- A line of markup. -/
  | line (markup : String)
  /-- What is wrong with a YAML text. -/
  | fault (f : Yaml.Fault)
  | tree (t : Tree)
  | table (t : Table)
  /-- A text in a frame with a title. -/
  | panel (text title : String)

/-- The texts in something printed. The text of a fault holds none but plain characters. -/
def Printed.texts : Printed → List String
  | line markup => [markup]
  | fault _ => []
  | tree t => t.texts
  | table t => t.title :: t.rows.flatten
  | panel text title => [text, title]

/-- What ends a command at once, without a message of its own. -/
inductive Crash where
  /-- The bytes of a file are not text, or a part of it has no value. -/
  | noDocument (f : Yaml.Fault)
  /-- There is a NUL in the name of a file. -/
  | badPath
  /-- A trace is no JSON document. -/
  | unfit (f : DumpFault)
  /-- A file stands where a directory is needed. -/
  | blocked
  /-- An integer has more digits than are printed. -/
  | unprintable
  /-- A tree is too deep to be drawn. -/
  | deepTree
  /-- The console does not print something. -/
  | refused (p : Printed)

/-- What a command leaves behind. -/
structure Result where
  status : Nat := 0
  printed : List Printed := []
  /-- What is written as it is, without markup. -/
  output : String := ""
  crash? : Option Crash := none
  files : Files

/-- Where and when a command is called. -/
structure Context where
  files : Files
  /-- The name of the working directory. -/
  directory : FilePath
  /-- The time of day. -/
  now : Int

/-- What a command is carried out with. -/
structure Machine where
  /-- The document that YAML of the given bytes holds. -/
  yaml : ByteArray → Except Yaml.Fault Document
  /-- Whether the console prints something, and does not fail. -/
  prints : Printed → Bool
  /-- Whether the stack has room for so many calls in a row, of which the last draws a place. -/
  hasRoom : Nat → Option Node → Bool

/-- How deep a tree may be to be drawn. -/
def treeRoom : Nat := 980

/-- A console that knows all characters, but no half of a surrogate pair, and a usual stack. -/
def Machine.standard : Machine where
  yaml := Yaml.read
  prints p := !p.texts.any Text.hasHalf
  hasRoom depth _ := depth ≤ treeRoom

/-- The version of the program. -/
def programVersion : String := "0.1.0"

/-- Lines printed before a command fails. -/
def Context.failing (c : Context) (printed : List Printed) : Result :=
  { status := 1, printed := printed, files := c.files }

/-- A command that crashes. -/
def Context.crashing (c : Context) (crash : Crash) : Result :=
  { status := 1, crash? := some crash, files := c.files }

/-! ### Workflow files -/

/-- Why there is no workflow in a file. -/
inductive LoadError where
  | directory
  | unreadable (f : Yaml.Fault)
  /-- The file holds something else than a mapping. -/
  | notMapping (kind : String)
  | invalid (issues : List Issue)

/-- The workflow in a file, which is YAML or, as a part of that, JSON. -/
def Machine.load (m : Machine) (now : Int) : FileEntry → Except LoadError Export
  | .directory => .error .directory
  | .file content => do
    let d ← (m.yaml content).mapError .unreadable
    match d with
    | .object _ => (Export.read now d).toExcept.mapError .invalid
    | _ => .error (.notMapping d.kind)

/-- The workflow in a file as it is usually read. -/
def loadWorkflow (now : Int) : FileEntry → Except LoadError Export :=
  Machine.standard.load now

/-- A step into a document as text. -/
def stepText : Step → String
  | .name s => s
  | .index n => toString n

/-- The line for an issue. -/
def issueLine (i : Issue) : Printed :=
  .line ("  - " ++ Text.escapeMarkup (".".intercalate (i.path.map stepText)) ++ ": "
    ++ Text.escapeMarkup (i.fault.message .data))

/-- What becomes of a command whose file holds no workflow. -/
def Context.refuse (c : Context) (file : String) : LoadError → Result
  | .directory =>
    c.failing [.line ("[red]Error reading '" ++ Text.escapeMarkup file ++ "':[/red] "
      ++ Text.escapeMarkup (PathFault.isDirectory.message file))]
  | .unreadable f =>
    if f.isSyntax then
      c.failing [.line ("[red]Error parsing '" ++ Text.escapeMarkup file ++ "':[/red]"), .fault f]
    else c.crashing (.noDocument f)
  | .notMapping kind =>
    c.failing [.line ("[red]Error: Invalid content in '" ++ Text.escapeMarkup file
      ++ "'. Expected an object, got " ++ kind ++ ".[/red]")]
  | .invalid issues =>
    c.failing (.line "[red]Error validating workflow schema:[/red]" :: issues.map issueLine)

/-! ### The commands -/

/-- Creates the configuration of a project, unless there is one. -/
def Context.init (c : Context) : Result :=
  match c.files.find? configFile with
  | some _ =>
    { printed := [.line "[yellow]Project already initialized[/yellow]"], files := c.files }
  | none =>
    match c.files.write configFile standardConfigText.toUTF8 with
    | .error _ => c.crashing .blocked
    | .ok files =>
      let created := Text.escapeMarkup (c.directory.under configDirectory).text
      { printed := [.panel ("[green]Project initialized![/green]\n\nCreated: " ++ created
          ++ "\n- config.yaml: History and storage settings") "flowcraft"]
        files := files }

/-- Whether a trace holds an integer of more digits than are printed. -/
def isUnprintable (trace : List TraceEntry) : Bool :=
  trace.any fun t => Literal.maxIntegerDigits < max t.input.mostDigits t.output.mostDigits

/-- What a run that failed prints: its error, and what was done before unless JSON is wanted. -/
def Context.reportFailure (c : Context) (e : RunError) (trace : List TraceEntry) (json : Bool) :
    Result :=
  let first := .line ("[red]Error:[/red] " ++ Text.escapeMarkup e.message)
  if trace.isEmpty || json then c.failing [first]
  else if isUnprintable trace then { c.crashing .unprintable with printed := [first] }
  else c.failing [first, .table (traceTable trace "Partial trace")]

/-- What a run that went through prints. -/
def Context.reportSuccess (c : Context) (trace : List TraceEntry) (json : Bool) : Result :=
  if json then
    match trace.mapM TraceEntry.dump with
    | .error f => c.crashing (.unfit f)
    | .ok entries =>
      if isUnprintable trace then c.crashing .unprintable
      else { output := Json.write .listing (.list entries) ++ "\n", files := c.files }
  else if isUnprintable trace then c.crashing .unprintable
  else
    { printed := [.table (traceTable trace "Execution trace"),
        .line ("[green]Workflow completed: " ++ toString trace.length
          ++ " node(s) executed[/green]")]
      files := c.files }

/-- Runs a workflow and prints its trace. -/
def Context.run (c : Context) (w : Export) (json : Bool) : Result :=
  let result := w.graph.execute fun _ => c.now
  match result.error? with
  | some e => c.reportFailure e result.trace json
  | none => c.reportSuccess result.trace json

/-- Prints the problems of a workflow. -/
def Context.validate (c : Context) (w : Export) : Result :=
  let counts := [.line ("[bold]Nodes:[/] " ++ toString w.graph.nodes.length),
    .line ("[bold]Edges:[/] " ++ toString w.graph.edges.length)]
  match w.graph.problems with
  | [] => { printed := counts ++ [.line "\n[green]✓ Graph is valid[/]"], files := c.files }
  | problems =>
    c.failing (counts ++ .line "\n[red bold]Validation Errors:[/]"
      :: problems.map fun p => .line ("  [red]• " ++ Text.escapeMarkup p.message ++ "[/]"))

/--
What keeps a place of a tree from being drawn: there is no room for it, or its operand has too many
digits.
-/
def Machine.placeCrash? (m : Machine) : Nat × Option Node → Option Crash
  | (depth, n?) =>
    if !m.hasRoom depth n? then some .deepTree
    else if n?.any fun n => Literal.maxIntegerDigits < n.payload.mostDigits then some .unprintable
    else none

/-- Prints a workflow as a tree under the name of its file. -/
def Context.showTree (c : Context) (m : Machine) (file : String) (w : Export) : Result :=
  match w.graph.places.findSome? m.placeCrash? with
  | some crash => c.crashing crash
  | none => { printed := [.tree (w.graph.tree (FilePath.parse file).name)], files := c.files }

/-- Does what a command line asks for, and leaves it to the console to print. -/
def Context.attempt (c : Context) (m : Machine) : Request → Except UsageError Result
  | .help topic => .ok { output := helpText topic, files := c.files }
  | .programVersion =>
    .ok { output := "main, version " ++ programVersion ++ "\n", files := c.files }
  | .command .init _ _ => .ok c.init
  | .command .version _ _ =>
    .ok { printed := [.line ("flowcraft v" ++ programVersion)], files := c.files }
  | .command name file json =>
    if file.contains '\x00' then .ok (c.crashing .badPath)
    else
      match c.files.findText? file with
      | none => .error (.noSuchFile file)
      | some entry =>
        match m.load c.now entry with
        | .error e => .ok (c.refuse file e)
        | .ok w =>
          match name with
          | .validate => .ok (c.validate w)
          | .tree => .ok (c.showTree m file w)
          | _ => .ok (c.run w json)

/-! ### The console -/

/-- What a command leaves behind on a console: it ends at the first thing that is not printed. -/
def Machine.print (m : Machine) (result : Result) : Result :=
  match result.printed.find? fun p => !m.prints p with
  | none => result
  | some p =>
    { status := 1
      printed := result.printed.takeWhile m.prints
      crash? := some (.refused p)
      files := result.files }

/-- Does what a command line asks for with a given machine. -/
def Context.performOn (c : Context) (m : Machine) (r : Request) : Except UsageError Result :=
  (c.attempt m r).map m.print

/-- Does what a command line asks for. -/
def Context.perform (c : Context) : Request → Except UsageError Result :=
  c.performOn .standard

/-- Carries out a command line with a given machine. -/
def Context.callOn (c : Context) (m : Machine) (words : List String) : Except UsageError Result :=
  (Request.parse words).bind (c.performOn m)

end Workflow.CommandLine
