import Flowgraph.Dag
import Flowgraph.Traced

/-! References: the names by which the parts of a workflow refer to each other, and the nodes they stand
    for. All of them are known before any edge is drawn, so a block may refer to one declared after
    it. -/

namespace Flowgraph

/-- What a reference may stand for, in the order in which it is looked for. -/
inductive RefKind where
  | trigger
  | action
  | gateway
  | parallel
  | join
  | loop
  deriving DecidableEq, Repr

def RefKind.lookupOrder : List RefKind := [.trigger, .action, .gateway, .parallel, .join, .loop]

/-- A reference declared for a node. -/
structure RefEntry where
  kind : RefKind
  ref : String
  node : String
  deriving DecidableEq, Repr

/-- The declared references of a workflow, in document order. -/
abbrev RefIndex := List RefEntry

namespace RefIndex

/-- The node of the last declaration of a reference in a kind. -/
def inKind? (ix : RefIndex) (ref : String) (kind : RefKind) : Option String :=
  (ix.reverse.find? fun e => e.kind = kind ∧ e.ref = ref).map (·.node)

/-- The node that a reference stands for: that of the first kind that declares it. -/
def lookup? (ix : RefIndex) (ref : String) : Option String :=
  RefKind.lookupOrder.findSome? (inKind? ix ref)

/-- The node that a reference stands for, with a warning if there is none. -/
def resolve (ix : RefIndex) (ref path : String) : Traced (Option String) := do
  let node := lookup? ix ref
  if node.isNone then
    Traced.warning .unresolvedRef path ("Reference '" ++ ref ++ "' does not name any node") none
  pure node

/-- The same for a reference that need not be given. -/
def resolve? (ix : RefIndex) (ref : Option String) (path : String) : Traced (Option String) :=
  match ref with
  | some ref => resolve ix ref path
  | none => pure none

end RefIndex

/-- The `i`-th node id of a stem, counted from zero. -/
def NodeType.idAt (type : NodeType) (i : Nat) : String := nodeId type.idStem (i + 1)

/-- The type of node that a loop becomes. -/
def LoopBlock.nodeType : LoopBlock → NodeType
  | .whileLoop _ => .loopWhile
  | .foreachLoop _ => .loopForeach

namespace FlowControl

/-- No control flow. -/
def empty : FlowControl := ⟨[], [], [], []⟩

/-- The references that the blocks declare. -/
def references (f : FlowControl) : RefIndex :=
  let gateways := f.conditions.zipIdx.flatMap fun (c, i) =>
    c.localId.toList.map fun ref => ⟨.gateway, ref, NodeType.gatewayIf.idAt i⟩
  let parallels := f.parallels.zipIdx.flatMap fun (b, i) =>
    b.localId.toList.map (fun ref => ⟨.parallel, ref, NodeType.parallel.idAt i⟩)
      ++ b.joinKey?.toList.map (fun ref => ⟨.join, ref, NodeType.join.idAt i⟩)
  let loops := f.loops.zipIdx.flatMap fun (l, i) =>
    l.localId.toList.map fun ref => ⟨.loop, ref, l.nodeType.idAt i⟩
  gateways ++ parallels ++ loops

end FlowControl

namespace Workflow

/-- The triggers that can be run, with how. -/
def runnableTriggers (w : Workflow) : List (Trigger × TriggerExec) :=
  w.triggers.filterMap fun t => t.exec.map fun e => (t, e)

/-- The actions that can be run, with how. -/
def runnableActions (w : Workflow) : List (Action × ActionExec) :=
  w.actions.filterMap fun a => a.exec.map fun e => (a, e)

/-- The references that the document declares. -/
def references (w : Workflow) : RefIndex :=
  w.runnableTriggers.zipIdx.map (fun ((t, _), i) => ⟨.trigger, t.localId, NodeType.trigger.idAt i⟩)
    ++ w.runnableActions.zipIdx.map
      (fun ((a, _), i) => ⟨.action, a.localId, NodeType.action.idAt i⟩)
    ++ (w.flowControl.getD .empty).references

end Workflow

end Flowgraph
