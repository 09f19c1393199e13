import Workflow.Proofs.CommandLine.Outcome
import Workflow.Proofs.Editor.Execution
import Workflow.Proofs.Editor.Loading
import Workflow.Proofs.Run.Alike
import Workflow.Proofs.Yaml.Saved

/-!
# Saved files on the command line

An editor reads a saved workflow as JSON, a command reads it as YAML. Where the text of the workflow
is the same to both, they have the same workflow, and a run of the command does what a run of the
editor does.
-/

namespace Workflow

open CommandLine

variable {e x : Editor} {w : Export} {run : Run} {error : RunError}

/-! ### Runs of an editor -/

namespace Editor

/-- A run that an editor's execute leaves behind: it is what is answered, and its trace is kept. -/
structure Ran (e : Editor) (run : Run) : Prop where
  answer : e.execute.answer = run.answer
  trace : e.execute.editor.trace = run.trace

/-- What keeps a change from being announced is no error of a run. -/
lemma announce_answer_ne (e : Editor) (change : Change) :
    (e.announce change).answer ≠ .error (.run error) := by
  intro h
  obtain ⟨reason, -, hfails⟩ := announce_error h
  cases hfails

/-- Unless it fails for another reason than a run, an editor's execute is a run of its graph. -/
lemma exists_ran (h : ∀ f, e.execute.answer = .error f → ∃ error, f = .run error) :
    ∃ clock, e.Ran (e.state.graph.execute clock) := by
  rw [execute] at h
  cases hset : (e.setExecuting true).answer with
  | error f =>
    rw [Outcome.andThen_of_error hset] at h
    obtain ⟨error, rfl⟩ := h f rfl
    exact absurd hset (announce_answer_ne _ _)
  | ok _ =>
    rw [Outcome.andThen_of_ok hset] at h
    let begun : Editor := (e.setExecuting true).editor
    let run : Run := begun.state.graph.execute fun _ => begun.time
    have hgraph : begun.state.graph = e.state.graph :=
      congrArg (fun x => x.state.graph) (still_announce (e.flagged true) .executing)
    let kept : Editor := { begun with trace := run.trace }
    cases hreset : (kept.setExecuting false).answer with
    | error f =>
      rw [Outcome.andThen_of_error hreset] at h
      obtain ⟨error, rfl⟩ := h f rfl
      exact absurd hreset (announce_answer_ne _ _)
    | ok _ =>
      have hkept : (kept.setExecuting false).editor.trace = run.trace :=
        congrArg Editor.trace (still_announce (kept.flagged false) .executing)
      have hexecute : e.execute = ⟨(kept.setExecuting false).editor, run.answer⟩ := by
        rw [execute, Outcome.andThen_of_ok hset]
        refine (Outcome.andThen_of_ok hreset _).trans ?_
        rw [Run.answer]
        cases run.error? <;> rfl
      have hran : e.Ran run := by
        constructor <;> rw [hexecute]
        exact hkept
      exact ⟨fun _ => begun.time, hgraph ▸ hran⟩

end Editor

/-! ### Files -/

namespace CommandLine

lemma loadWorkflow_of_file (hfits : w.toValue.Fits 200) (hlegible : w.toValue.isLegible = true)
    (hpointed : ∀ n ∈ w.graph.nodes, n.payload.toValue.isPointed = true) (now : Int) :
    loadWorkflow now (.file (Text.toUtf8 (Json.write .file w.toValue))) = .ok w := by
  have hread : Machine.standard.yaml (Text.toUtf8 (Json.write .file w.toValue))
      = .ok (Document.ofValue w.toValue.asYaml) := Yaml.read_write hfits hlegible
  have hexport : Export.read now (.ofValue w.toValue.asYaml) = .ok w :=
    Export.read_asYaml hfits hpointed now
  rw [loadWorkflow, Machine.load, hread]
  change (Export.read now (.ofValue w.toValue.asYaml)).toExcept.mapError LoadError.invalid = _
  rw [hexport]
  rfl

/--
The file of a saved workflow holds the same workflow for the editor, which reads it as JSON, and for
a command, which reads it as YAML. Let a workflow have been written, and let it be something that a
JSON file can hold. Let its texts be legible: they hold no character that ends a line or may not
stand in YAML, and the names of members are not too long. And let the doubles in the payloads be
written with a point. Then every editor with this file has the workflow stored, and every command
that takes this file loads it. A command that runs it leaves behind what an editor's execute leaves
behind for this graph, timestamps aside, if that comes to a run at all.
-/
theorem loadWorkflow_of_write (hwritten : (e.write w).answer = .ok true)
    (hfits : w.toValue.Fits 200) (hlegible : w.toValue.isLegible = true)
    (hpointed : ∀ n ∈ w.graph.nodes, n.payload.toValue.isPointed = true) :
    ∃ content, (e.write w).editor.files.find? e.config.storage.path = some (.file content) ∧
      (∀ now, loadWorkflow now (.file content) = .ok w) ∧
      (∀ x : Editor, x.files.find? x.config.storage.path = some (.file content) →
        x.stored = .ok (some w)) ∧
      ∀ (c : Context) (file : String) (json : Bool), file.contains '\x00' = false →
        c.files.findText? file = some (.file content) →
        ∀ x : Editor, x.state.graph = w.graph →
          (∀ f, x.execute.answer = .error f → ∃ error, f = .run error) →
          ∃ run other : Run, x.Ran run ∧ other.undated = run.undated ∧
            c.perform (.command .run file json) = .ok (c.report other json) := by
  obtain ⟨text, htext, hfile⟩ := Editor.exists_of_write hwritten
  obtain rfl : Json.write .file w.toValue = text := by
    rw [Export.fileText_of_fits hfits (by decide)] at htext
    exact Except.ok.inj htext
  have hload := loadWorkflow_of_file hfits hlegible hpointed
  refine ⟨_, hfile, hload, fun x => Editor.stored_of_file hfits,
    fun c file json hnul hfound x hgraph hrun => ?_⟩
  obtain ⟨clock, hran⟩ := Editor.exists_ran hrun
  refine ⟨_, w.graph.execute fun _ => c.now, hran, ?_, ?_⟩
  · rw [hgraph, Graph.execute_undated]
  · have hnow : Machine.standard.load c.now _ = .ok w := hload c.now
    have hattempt : c.attempt .standard (.command .run file json)
        = .ok (c.tell (w.graph.execute fun _ => c.now) json) := by
      simp only [Context.attempt, hnul, hfound, hnow]
      rfl
    rw [Context.perform, Context.performOn, hattempt]
    rfl

/-- What the editor drew and saved is the same to the command line. -/
theorem loadWorkflow_of_write_drawn :
    Editor.drawn.save.answer = .ok true ∧
      ∃ content, Editor.drawn.save.editor.files.find? ⟨"", ["w.json"]⟩ = some (.file content) ∧
        ∀ now, loadWorkflow now (.file content) = .ok Editor.drawn.exported := by
  obtain ⟨content, hfile, hloaded, -⟩ :=
    loadWorkflow_of_write Editor.save_drawn (by decide +kernel) (by decide +kernel)
      (by decide +kernel)
  exact ⟨Editor.save_drawn, content, hfile, hloaded⟩

end CommandLine

end Workflow
