import Workflow.Config.Basic
import Workflow.Yaml.Reader

/-!
# Configuration files

The configuration of a project stands in a YAML file of its own. Without that file, or with one that
holds nothing, everything is as by default. A relative path in it is seen from the project's
directory.
-/

namespace Workflow

/-- The directory of a project that holds its configuration. -/
def configDirectory : FilePath :=
  ⟨"", [".flowcraft"]⟩

/-- The file of a project that holds its configuration. -/
def configFile : FilePath :=
  ⟨"", [".flowcraft", "config.yaml"]⟩

/-- The configuration file of a new project. -/
def standardConfigText : String :=
  String.join (List.map (· ++ "\n") [
    "# flowcraft configuration for this project",
    "",
    "history:",
    "  max_states: 50        # Undo steps kept; the oldest is dropped beyond this",
    "  apply_delay: 0.1      # Seconds undo/redo writes are ignored by the recorder",
    "  record_debounce: 0.5  # Quiet period (seconds) before an edit is recorded",
    "",
    "storage:",
    "  path: .flowcraft/workflow.json",
    "  autosave_delay: 2.0   # Seconds of inactivity before autosave writes"])

/-- Why a configuration file cannot be used. -/
inductive ConfigError where
  /-- It is not YAML. -/
  | unreadable (fault : Yaml.Fault)
  | invalid (issues : List Issue)

/-- The configuration that a file of the given bytes holds. -/
def Config.ofFile (bytes : ByteArray) : Except ConfigError Config := do
  let d ← (Yaml.read bytes).mapError .unreadable
  (Config.read (if d.isVoid then .object [] else d)).toExcept.mapError .invalid

/-- A configuration with its path seen from a directory. -/
def Config.under (directory : FilePath) (c : Config) : Config :=
  { c with storage := { c.storage with path := directory.under c.storage.path } }

/-- The configuration of the project in a directory, given the bytes of its file if there is one. -/
def Config.load (directory : FilePath) (bytes? : Option ByteArray) : Except ConfigError Config :=
  match bytes? with
  | none => .ok (({} : Config).under directory)
  | some bytes => (Config.ofFile bytes).map (·.under directory)

end Workflow
