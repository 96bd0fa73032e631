import Flowgraph.Dag.Lower

/-! Both stages, one after the other: from template to executable to graph. -/

namespace Flowgraph

open Json

structure Pipeline where
  materializer : Materializer
  lowerer : Lowerer

/-- What a run hands back: the executable, the graph, and the reports of both stages as one. -/
structure PipelineOutcome where
  executable : Option Workflow
  dag : Option Dag
  diagnostics : Diagnostics

namespace Pipeline

/-- The executable with the user's id, unless it names a user. -/
def withUser (w : Workflow) (userId : Option String) : Workflow :=
  match userId with
  | some id =>
    if Object.has w.extra "user_id" then w
    else { w with extra := Object.put "user_id" (.str id) w.extra }
  | none => w

/-- Compiles a template and lowers what comes out. -/
def run (p : Pipeline) (template : Value) (c : Context) : PipelineOutcome :=
  let first := p.materializer.compile template c
  match first.document with
  | none => ⟨none, none, first.diagnostics⟩
  | some executable =>
    let second := p.lowerer.compileDocument (withUser executable c.userId?)
    ⟨some executable, second.document, first.diagnostics ++ second.diagnostics⟩

end Pipeline

end Flowgraph
