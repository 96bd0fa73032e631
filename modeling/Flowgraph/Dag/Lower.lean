import Flowgraph.Dag.Check
import Flowgraph.Dag.Codec
import Flowgraph.Dag.Entities
import Flowgraph.Dag.Flow
import Flowgraph.Dag.Layout
import Flowgraph.Executable.Materialize

/-! From executable to graph. -/

namespace Flowgraph

open Json

/-- How executables are lowered: where the nodes go, the parallelism of workflows that set none, what is
    shown where nothing is set, and the catalog for names and icons. -/
structure Lowerer where
  layout : LayoutStrategy
  maxParallelism : UInt32
  uiDefaults : Object
  catalog : Option CatalogIndex

namespace Lowerer

def standard : Lowerer := ⟨LayoutKind.dagre, 10, [], none⟩

/-- Whether a trigger or action has an exec block. -/
def hasExec (item : Value) : Bool :=
  match item.member? "exec" with
  | some v => !v.isNull
  | none => false

/-- Whether a document has the fields of a workflow, and each trigger and action a local id and an exec
    block. -/
def validate (executable : Value) : Traced Bool := do
  let valid ← Path.requireFields executable requiredFields ""
  (entities executable).foldlM (fun valid (path, item) => do
    let named ← Path.requireFields item ["local_id"] path
    if !hasExec item then
      Traced.error .missingExecBlock path
        "Entity has no exec block; materialize the template first" none
    pure (valid && named && hasExec item)) valid

/-- The part of a graph that comes from a workflow alone: nodes and edges, unless a route leads
    nowhere. -/
def graph (l : Lowerer) (w : Workflow) : Traced (Option (List Node × List Edge)) := do
  let drawing ← w.draw
  if drawing.routes.all (·.isSome) then
    let nodes := w.entityNodes l.catalog ++ drawing.blocks.flatMap (·.nodes)
    pure (some (l.layout.place nodes, numberLinks drawing.links))
  else pure none

/-- What holds for the whole graph, from the workflow's policies. -/
def globals (l : Lowerer) (policies : Option Policies) : Globals :=
  let p := policies.getD .none
  ⟨p.retry, p.timeoutMs, p.rateLimit, p.maxParallelism.getD l.maxParallelism⟩

/-- Sets a default where its path leads to nothing. -/
def fillUi (ui : Value) (default : String × Value) : Value :=
  if (Path.get? ui default.1).isNone then Path.set ui default.1 default.2 else ui

/-- How the graph is shown: the layout and the initial viewport, then the defaults for what is not
    set. -/
def uiHints (l : Lowerer) : Except DecodeError UiHints :=
  let hints := UiHints.codec.toValue ⟨l.layout, .initial, []⟩
  Decoder.ofValue UiHints.codec.decode (l.uiDefaults.foldl fillUi hints)

/-- The user of a workflow, where it names one. -/
def userId? (w : Workflow) : Option String :=
  match Object.member? w.extra "user_id" with
  | some (.str s) => some s
  | _ => none

/-- The report of a document that is not what was expected. -/
def malformed (log : Diagnostics) (path : String) (cause : DecodeError) : Outcome Dag :=
  ⟨none, log.addError .internalError "" (MalformedDocument.message ⟨path, cause⟩) none⟩

/-- Checks a graph and hands it out if it is usable. -/
def finish (log : Diagnostics) (d : Dag) : Outcome Dag :=
  ⟨if d.errors.isEmpty then some d else none, log ++ d.check⟩

/-- Lowers a workflow that has been read. -/
def lower (l : Lowerer) (log : Diagnostics) (w : Workflow) : Outcome Dag :=
  let built := l.graph w
  let log := log ++ built.log
  match built.value with
  | none => ⟨none, log⟩
  | some (nodes, edges) => match l.uiHints with
    | .error cause => malformed log "ui" cause
    | .ok ui => finish log {
        workflowId := w.id
        version := w.version
        userId := userId? w
        nodes := nodes
        edges := edges
        globals := l.globals w.policies
        ui := ui }

/-- Lowers an executable. There is no graph if the document is no executable, if a route leads nowhere or
    if the graph does not hold together. -/
def compile (l : Lowerer) (executable : Value) : Outcome Dag :=
  let valid := validate executable
  if !valid.value then ⟨none, valid.log⟩
  else match Workflow.ofValue executable with
    | .error cause => malformed valid.log "executable" cause
    | .ok w => l.lower valid.log w

/-- Lowers an executable that has been read already. -/
def compileDocument (l : Lowerer) (executable : Workflow) : Outcome Dag :=
  l.compile executable.toValue

end Lowerer

end Flowgraph
