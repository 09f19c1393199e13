import Workflow.CommandLine.Arguments

/-!
# Help texts

The help text of the program lists its options and commands, and that of a command its options, each
with a few words in a second column.
-/

namespace Workflow.CommandLine

/-- What a command does. -/
def CommandName.summary : CommandName → String
  | .init => "Initialize project configuration."
  | .run => "Execute a workflow file and print its execution trace."
  | .tree => "Print a workflow as a tree rooted at its start node."
  | .validate => "Check a workflow file for structural problems."
  | .version => "Show version information."

/-- Lines of two columns, the second of which begins two places behind the widest first one. -/
def twoColumns (rows : List (String × String)) : List String :=
  let width := (rows.map fun r => r.1.length).foldl max 0
  rows.map fun (left, right) =>
    "  " ++ left ++ String.ofList (List.replicate (width + 2 - left.length) ' ') ++ right

/-- The line for the option that asks for help. -/
def helpRow : String × String :=
  ("--help", "Show this message and exit.")

/-- The help text of the program. -/
def programHelp : List String :=
  ["Usage: main [OPTIONS] COMMAND [ARGS]...", "",
    "  flowcraft - build and run typed workflow graphs.", "", "Options:"]
  ++ twoColumns [("--version", "Show the version and exit."),
    ("-v, --verbose", "Enable debug logging"), helpRow]
  ++ ["", "Commands:"] ++ twoColumns (CommandName.all.map fun c => (c.name, c.summary))

/-- The help text of a command. -/
def CommandName.help (c : CommandName) : List String :=
  let sample :=
    if c = .run then ["", "  Example:     flowcraft run my-workflow.json"] else []
  let json := if c = .run then [("--json", "Print the trace as JSON")] else []
  ["Usage: main " ++ c.name ++ " [OPTIONS]" ++ (if c.takesFile then " WORKFLOW_FILE" else ""), "",
    "  " ++ c.summary]
  ++ sample ++ ["", "Options:"] ++ twoColumns (json ++ [helpRow])

/-- The help text of the program or of a command. -/
def helpText (topic : Option CommandName) : String :=
  String.join (((topic.map CommandName.help).getD programHelp).map (· ++ "\n"))

end Workflow.CommandLine
