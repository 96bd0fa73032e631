import Flowgraph.Diagnostic

/-! Results with what there is to report about them. Steps are chained with their reports one behind the
    other, so the order of a report is the order of the steps. -/

namespace Flowgraph

/-- A result and the report that goes with it. -/
structure Traced (α : Type) where
  value : α
  log : Diagnostics

namespace Traced

/-- A result with nothing to report. -/
def silent (a : α) : Traced α := ⟨a, .empty⟩

/-- One step after the other. -/
def andThen (x : Traced α) (f : α → Traced β) : Traced β :=
  let y := f x.value
  ⟨y.value, x.log ++ y.log⟩

instance : Monad Traced where
  pure := silent
  bind := andThen

def error (code : DiagnosticCode) (path message : String) (hint : Option String) : Traced Unit :=
  ⟨(), Diagnostics.empty.addError code path message hint⟩

def warning (code : DiagnosticCode) (path message : String) (hint : Option String) : Traced Unit :=
  ⟨(), Diagnostics.empty.addWarning code path message hint⟩

def hint (text : String) : Traced Unit := ⟨(), Diagnostics.empty.addHint text⟩

end Traced

end Flowgraph
