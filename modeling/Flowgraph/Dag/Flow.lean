import Flowgraph.Dag.References

/-! Control flow as nodes and edges: conditions become gateways, parallel blocks a start and a join, loops
    a node each; routes and dependencies become edges between them. -/

namespace Flowgraph

open Json

/-- An edge before it is numbered. -/
structure Link where
  source : String
  target : String
  when : String
  condition : Option Value
  label : Option String
  deriving DecidableEq

/-- An edge followed whenever its source succeeds. -/
def Link.plain (source target : String) : Link := ⟨source, target, Edge.usualWhen, none, none⟩

/-- Nodes and the links drawn with them. -/
structure Subgraph where
  nodes : List Node
  links : List Link
  deriving DecidableEq

def Subgraph.empty : Subgraph := ⟨[], []⟩

def Subgraph.append (a b : Subgraph) : Subgraph := ⟨a.nodes ++ b.nodes, a.links ++ b.links⟩

instance : Append Subgraph := ⟨Subgraph.append⟩

/-- A node of a block. -/
def blockNode (id label : String) (data : NodeData) : Node := ⟨id, data, label, none, none⟩

/-- The plain link from the node that a reference stands for, if any. -/
def incomingLink (source : Option String) (target : String) : List Link :=
  source.toList.map (Link.plain · target)

/-- The branches of a condition with the nodes they lead to; a branch without a name is numbered. -/
def gatewayBranches (ix : RefIndex) (path : String) (branches : List ConditionBranch) :
    Traced (List GatewayBranch) :=
  branches.zipIdx.mapM fun (b, j) => do
    let target ← ix.resolve b.toRef (indexed (path ++ ".branches") j ++ ".to_ref")
    pure ⟨b.name.getD ("branch_" ++ toString (j + 1)), b.expr, target⟩

/-- A condition: a gateway, a link for each branch that leads somewhere, and one for all else. -/
def conditionGraph (ix : RefIndex) (c : Conditional) (id path : String) : Traced Subgraph := do
  let branches ← gatewayBranches ix path c.branches
  let elseTarget ← ix.resolve? c.elseRef (path ++ ".else_ref")
  let source ← ix.resolve? c.incomingRef (path ++ ".incoming_ref")
  let branchLinks := branches.flatMap fun b => b.target.toList.map fun target =>
    ⟨id, target, Edge.usualWhen, some b.expr, some b.name⟩
  let elseLinks := elseTarget.toList.map fun target =>
    { Link.plain id target with label := some "else" }
  pure ⟨[blockNode id "If" (.gatewayIf ⟨branches, elseTarget⟩)],
    incomingLink source id ++ branchLinks ++ elseLinks⟩

/-- A parallel block: its start with a link for each branch, and its join with the link out of it. -/
def parallelGraph (ix : RefIndex) (b : ParallelBlock) (startId joinId path : String) :
    Traced Subgraph := do
  let targets ← b.branches.zipIdx.mapM fun (ref, j) =>
    ix.resolve ref (indexed (path ++ ".branches") j)
  let targets := targets.filterMap id
  let source ← ix.resolve? b.incomingRef (path ++ ".incoming_ref")
  let next ← ix.resolve? b.outgoingRef (path ++ ".outgoing_ref")
  let branchLinks := targets.map fun target =>
    { Link.plain startId target with label := some "parallel_branch" }
  pure ⟨[blockNode startId "Fan-out" (.parallel ⟨targets, joinId⟩),
      blockNode joinId "Join" (.join ⟨.all, startId⟩)],
    incomingLink source startId ++ branchLinks ++ next.toList.map (Link.plain joinId)⟩

def defaultMaxIterations : UInt32 := 1000
def defaultMaxConcurrency : UInt32 := 5

/-- The node of a loop, with what its block leaves out. -/
def loopNode (l : LoopBlock) (id : String) (body : Option String) : Node :=
  match l with
  | .whileLoop l => blockNode id "While"
    (.loopWhile ⟨l.condition, body, l.maxIterations.getD defaultMaxIterations⟩)
  | .foreachLoop l => blockNode id "For each"
    (.loopForeach ⟨l.sourceArrayExpr, l.itemVar.getD "item", l.indexVar.getD "index", body,
      l.maxConcurrency.getD defaultMaxConcurrency⟩)

/-- A loop: its node and the link to its body. -/
def loopGraph (ix : RefIndex) (l : LoopBlock) (id path : String) : Traced Subgraph := do
  let body ← ix.resolve? l.bodyRef (path ++ ".body_ref")
  let source ← ix.resolve? l.incomingRef (path ++ ".incoming_ref")
  let bodyLinks := body.toList.map fun target =>
    { Link.plain id target with label := some "loop_body" }
  pure ⟨[loopNode l id body], incomingLink source id ++ bodyLinks⟩

/-- The end of a route, reported as an error if it stands for nothing. -/
def routeEnd (ix : RefIndex) (ref path what : String) (code : DiagnosticCode) :
    Traced (Option String) := do
  let node ← ix.resolve ref path
  if node.isNone then
    Traced.error code path ("Route " ++ what ++ " '" ++ ref ++ "' does not exist") none
  pure node

/-- The link of a route, if both its ends stand for nodes. -/
def routeLink (ix : RefIndex) (r : Route) (path : String) : Traced (Option Link) := do
  let source ← routeEnd ix r.fromRef (path ++ ".from_ref") "source" .missingSourceRef
  let target ← routeEnd ix r.toRef (path ++ ".to_ref") "target" .missingTargetRef
  match source, target with
  | some source, some target =>
    pure (some ⟨source, target, r.when.getD Edge.usualWhen, r.condition, r.label⟩)
  | _, _ => pure none

/-- The nodes and links of the blocks: conditions, then parallel blocks, then loops. -/
def FlowControl.blockGraphs (f : FlowControl) (ix : RefIndex) : Traced (List Subgraph) := do
  let gateways ← f.conditions.zipIdx.mapM fun (c, i) =>
    conditionGraph ix c (NodeType.gatewayIf.idAt i) (indexed "flow_control.conditions" i)
  let parallels ← f.parallels.zipIdx.mapM fun (b, i) =>
    parallelGraph ix b (NodeType.parallel.idAt i) (NodeType.join.idAt i)
      (indexed "flow_control.parallel_execution" i)
  let loops ← f.loops.zipIdx.mapM fun (l, i) =>
    loopGraph ix l (l.nodeType.idAt i) (indexed "flow_control.loops" i)
  pure (gateways ++ parallels ++ loops)

/-- The links of the routes; none in place of one whose ends are not both nodes. -/
def FlowControl.routeLinks (f : FlowControl) (ix : RefIndex) : Traced (List (Option Link)) :=
  f.routes.zipIdx.mapM fun (r, i) => routeLink ix r (indexed "flow_control.routes" i)

/-- Adds the link of a dependency, unless one with its ends and its occasion is there. -/
def addDependency (links : List Link) (source target : String) : List Link :=
  if links.any fun l => l.source = source ∧ l.target = target ∧ l.when = Edge.usualWhen then links
  else links ++ [Link.plain source target]

/-- Adds the links of an action's dependencies. -/
def actionDependencies (ix : RefIndex) (links : List Link) (a : Action) (i : Nat) :
    Traced (List Link) :=
  match ix.lookup? a.localId with
  | none => pure links
  | some target =>
    (a.dependsOn.getD []).zipIdx.foldlM (fun links (ref, j) => do
      let path := indexed (indexed "actions" i ++ ".depends_on") j
      match ← ix.resolve ref path with
      | some source => pure (addDependency links source target)
      | none => pure links) links

/-- Adds the links of all dependencies. -/
def dependencies (ix : RefIndex) (links : List Link) (actions : List Action) :
    Traced (List Link) :=
  actions.zipIdx.foldlM (fun links (a, i) => actionDependencies ix links a i) links

/-- What the control flow of a workflow draws: the parts of its blocks, the links of its routes, and all
    links together, those of dependencies last. -/
structure Drawing where
  blocks : List Subgraph
  routes : List (Option Link)
  links : List Link

/-- Draws the blocks, the routes and then the dependencies. -/
def Workflow.draw (w : Workflow) : Traced Drawing := do
  let ix := w.references
  let flow := w.flowControl.getD .empty
  let blocks ← flow.blockGraphs ix
  let routes ← flow.routeLinks ix
  let drawn := blocks.flatMap (·.links) ++ routes.filterMap fun link => link
  let links ← dependencies ix drawn w.actions
  pure ⟨blocks, routes, links⟩

/-- Numbers the edges from one. -/
def numberLinks (links : List Link) : List Edge :=
  links.zipIdx.map fun (l, i) =>
    ⟨nodeId "e" (i + 1), l.source, l.target, l.when, l.condition, l.label⟩

end Flowgraph
