/-!
# Command lines

A command line has options, the name of a command, and the arguments of that command. Options may
stand anywhere among the arguments of a command, but before its name they belong to the program.
-/

namespace Workflow.CommandLine

/-- The commands of the program. -/
inductive CommandName where
  | init
  | run
  | tree
  | validate
  | version
deriving DecidableEq

namespace CommandName

/-- How a command is called. -/
def name : CommandName → String
  | init => "init"
  | run => "run"
  | tree => "show"
  | validate => "validate"
  | version => "version"

/-- All commands, in the order of their names. -/
def all : List CommandName :=
  [init, run, tree, validate, version]

/-- The command called by a name. -/
def ofName? (s : String) : Option CommandName :=
  all.find? fun c => c.name = s

theorem ofName?_name (c : CommandName) : ofName? c.name = some c := by
  cases c <;> decide

/-- Whether a command is given a workflow file. -/
def takesFile : CommandName → Bool
  | run | tree | validate => true
  | init | version => false

end CommandName

/-- What an option asks for. -/
inductive Flag where
  | help
  | version
  | verbose
  | json
deriving DecidableEq

/-- What a command line asks for. -/
inductive Request where
  /-- The help text of the program or of a command. -/
  | help (topic : Option CommandName)
  /-- The line with the program's version. -/
  | programVersion
  /-- A command, with its file if it takes one, and whether the answer should be JSON. -/
  | command (name : CommandName) (file : String) (json : Bool)
deriving DecidableEq

/-- What is wrong with a command line. -/
inductive UsageError where
  | unknownOption (word : String)
  | unknownCommand (name : String)
  | missingCommand
  | missingFile
  | extraArgument (word : String)
  | noSuchFile (file : String)
deriving DecidableEq

/-- The sentence for an error in a command line. -/
def UsageError.message : UsageError → String
  | unknownOption word => "No such option: " ++ word
  | unknownCommand name => "No such command '" ++ name ++ "'."
  | missingCommand => "Missing command."
  | missingFile => "Missing argument 'WORKFLOW_FILE'."
  | extraArgument word => "Got unexpected extra argument (" ++ word ++ ")"
  | noSuchFile file => "Path '" ++ file ++ "' does not exist."

/-- The options of the program. -/
def programOptions : List (String × Flag) :=
  [("--version", .version), ("-v", .verbose), ("--verbose", .verbose), ("--help", .help)]

/-- The options of a command. -/
def CommandName.options : CommandName → List (String × Flag)
  | .run => [("--json", .json), ("--help", .help)]
  | _ => [("--help", .help)]

/-- Whether a word is an option: it begins with a dash, and more follows. -/
def isOption (word : String) : Bool :=
  match word.toList with
  | '-' :: _ :: _ => true
  | _ => false

/-- The flags of letters that share one dash. -/
def letterFlags (known : List (String × Flag)) : List Char → Option (List Flag)
  | [] => some []
  | c :: cs => do
    let flag ← known.lookup (String.ofList ['-', c])
    let flags ← letterFlags known cs
    some (flag :: flags)

/-- The flags of an option: a word of its own, or letters after one dash. -/
def flagsOf (known : List (String × Flag)) (word : String) : Except UsageError (List Flag) :=
  let flags? :=
    match known.lookup word, word.toList with
    | some flag, _ => some [flag]
    | none, '-' :: '-' :: _ => none
    | none, _ :: letters => letterFlags known letters
    | none, [] => none
  match flags? with
  | some flags => .ok flags
  | none => .error (.unknownOption word)

/--
Takes the options from a list of words. Two dashes end them; `mixed` says whether they may also
stand behind other words.
-/
def takeOptions (known : List (String × Flag)) (mixed : Bool) :
    List String → Except UsageError (List Flag × List String)
  | [] => .ok ([], [])
  | word :: words =>
    if word = "--" then .ok ([], words)
    else if isOption word then do
      let flags ← flagsOf known word
      let (more, others) ← takeOptions known mixed words
      .ok (flags ++ more, others)
    else if mixed then do
      let (flags, others) ← takeOptions known mixed words
      .ok (flags, word :: others)
    else .ok ([], word :: words)

/--
Reads the arguments of a command. A file whose name holds a NUL cannot even be looked for, whatever
else is given.
-/
def CommandName.parse (c : CommandName) (words : List String) : Except UsageError Request := do
  let (flags, others) ← takeOptions c.options true words
  if flags.contains .help then .ok (.help (some c))
  else
    let json := flags.contains .json
    match c.takesFile, others with
    | true, [] => .error .missingFile
    | true, [file] => .ok (.command c file json)
    | true, file :: word :: _ =>
      if file.contains '\x00' then .ok (.command c file json) else .error (.extraArgument word)
    | false, [] => .ok (.command c "" json)
    | false, word :: _ => .error (.extraArgument word)

/-- What the options of the program ask for, if they do: of help and version the first counts. -/
def Request.ofFlags? (flags : List Flag) : Option Request :=
  (flags.find? fun f => f = .help || f = .version).map fun f =>
    if f = .help then .help none else .programVersion

/--
Reads a command line. What stands in place of the name of a command is looked at for options once
more, as it may come after two dashes.
-/
def Request.parse (words : List String) : Except UsageError Request := do
  let (flags, others) ← takeOptions programOptions false words
  match ofFlags? flags, others with
  | some request, _ => .ok request
  | none, [] => .error .missingCommand
  | none, name :: words =>
    match CommandName.ofName? name with
    | some c => c.parse words
    | none => do
      let (flags, _) ← takeOptions programOptions false others
      match ofFlags? flags with
      | some request => .ok request
      | none => .error (.unknownCommand name)

end Workflow.CommandLine
