import Flowgraph.Diagnostic
import Flowgraph.Workflow

/-! Ways to mend a document before it is judged. -/

namespace Flowgraph

/-- Sees the document and what was reported so far, and returns the mended document with a record of each
    change. -/
abbrev RepairStrategy := Workflow → Diagnostics → Workflow × List Repair

namespace RepairStrategy

/-- Leaves the document as it is: the strategy used where the caller has none of its own. -/
def none : RepairStrategy := fun w _ => (w, [])

/-- Drops every trigger and action that has no exec block: what a caller may hand in to get a document of all that
    could be resolved. -/
def dropUnresolved : RepairStrategy := fun w ds =>
  let reason := "removed after " ++ toString ds.errors.length ++ " errors"
  let repairs := w.missingExec.map fun (path, localId) => ⟨path, .str localId, .null, reason⟩
  ({ w with
      triggers := w.triggers.filter (·.exec.isSome)
      actions := w.actions.filter (·.exec.isSome) }, repairs)

end RepairStrategy

end Flowgraph
