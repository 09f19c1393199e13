import Workflow.Reading.Scalar
import Workflow.Storage.Files

/-!
# Configuration

How an editor keeps history and where it saves. Every member may be left out.
-/

namespace Workflow

/-- How an editor keeps history; the two delays are in seconds. -/
structure HistoryConfig where
  maxStates : Int := 50
  applyDelay : Float := 0.1
  recordDebounce : Float := 0.5

/-- Where an editor saves; the delay is in seconds. -/
structure StorageConfig where
  path : FilePath := ⟨"", [".flowcraft", "workflow.json"]⟩
  autosaveDelay : Float := 2.0

/-- The configuration of a project. -/
structure Config where
  history : HistoryConfig := {}
  storage : StorageConfig := {}

open Reading

/-- Reads a path. -/
def FilePath.read : Document → Reading FilePath
  | .str s => ok (.parse s)
  | _ => fault .notPath

/-- Reads a delay in seconds, which is not negative and a number indeed. -/
def readDelay (d : Document) : Reading Float :=
  atLeast 0 (fun x => !(0 ≤ x)) (double d)

/-- Reads the configuration of history. -/
def HistoryConfig.read : Document → Reading HistoryConfig :=
  Reading.object "HistoryConfig" fun ms =>
    HistoryConfig.mk
      <$> ms.optional "max_states" [] 50 (fun d => atLeast 1 (fun n => n < 1) (integer d))
      <*> ms.optional "apply_delay" [] 0.1 readDelay
      <*> ms.optional "record_debounce" [] 0.5 readDelay

/-- Reads the configuration of storage. -/
def StorageConfig.read : Document → Reading StorageConfig :=
  Reading.object "StorageConfig" fun ms =>
    StorageConfig.mk <$> ms.optional "path" [] ({} : StorageConfig).path FilePath.read
      <*> ms.optional "autosave_delay" [] 2.0 readDelay

/-- The name of the configuration in messages. -/
def configModel : String := "FlowcraftConfig"

/-- Reads a configuration. -/
def Config.read : Document → Reading Config :=
  Reading.object configModel fun ms =>
    Config.mk <$> ms.optional "history" [] {} HistoryConfig.read
      <*> ms.optional "storage" [] {} StorageConfig.read

end Workflow
