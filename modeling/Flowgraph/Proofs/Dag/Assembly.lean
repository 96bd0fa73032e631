import Flowgraph.Dag.Lower

/-! A graph put together step by step: ids are given out by counters, references are noted in tables as the ids
    are given out, and everything else is added to what is there. The ids of all blocks are reserved before the
    first block is drawn. -/

namespace Flowgraph

/-- A graph on its way: what is in it, the node of each reference, the last number of each stem and of the
    edges, and what there is to report. -/
structure Assembly where
  nodes : List Node
  edges : List Edge
  index : RefKind → String → Option String
  nodeCount : String → Nat
  edgeCount : Nat
  log : Diagnostics

namespace Assembly

def start : Assembly := ⟨[], [], fun _ _ => none, fun _ => 0, 0, .empty⟩

def lookup? (s : Assembly) (ref : String) : Option String :=
  RefKind.lookupOrder.findSome? fun kind => s.index kind ref

/-- An edge between two nodes that is followed on success. -/
def hasEdge (s : Assembly) (source target : String) : Bool :=
  s.edges.any fun e => e.source = source ∧ e.target = target ∧ e.when = Edge.usualWhen

end Assembly

/-- A step that adds to a graph. -/
abbrev Assembler := StateM Assembly

namespace Assembler

/-- The next id of a node. The types of a stem are numbered together. -/
def nextNode (type : NodeType) : Assembler String := do
  let s ← get
  let n := s.nodeCount type.idStem + 1
  set { s with nodeCount := fun stem => if stem = type.idStem then n else s.nodeCount stem }
  pure (nodeId type.idStem n)

def nextEdge : Assembler String := do
  let s ← get
  set { s with edgeCount := s.edgeCount + 1 }
  pure (nodeId "e" (s.edgeCount + 1))

/-- Notes the node of a reference, in place of an earlier one of the same kind. -/
def insert (kind : RefKind) (node ref : String) : Assembler Unit :=
  modify fun s => { s with index := fun k r => if kind = k ∧ ref = r then some node else s.index k r }

def pushNode (node : Node) : Assembler Unit := modify fun s => { s with nodes := s.nodes ++ [node] }

def addEdge (l : Link) : Assembler Unit := do
  let id ← nextEdge
  modify fun s => { s with edges := s.edges ++ [⟨id, l.source, l.target, l.when, l.condition, l.label⟩] }

def report (t : Traced Unit) : Assembler Unit := modify fun s => { s with log := s.log ++ t.log }

/-- The node that a reference stands for so far, with a warning if there is none. -/
def resolve (ref path : String) : Assembler (Option String) := do
  let node := (← get).lookup? ref
  if node.isNone then
    report (.warning .unresolvedRef path ("Reference '" ++ ref ++ "' does not name any node") none)
  pure node

def resolve? (ref : Option String) (path : String) : Assembler (Option String) :=
  match ref with
  | some ref => resolve ref path
  | none => pure none

/-- An edge for a node, if there is one. -/
def wire (node : Option String) (link : String → Link) : Assembler Unit :=
  match node with
  | some node => addEdge (link node)
  | none => pure ()

/-- The next id, noted for a reference if there is one. -/
def reserveId (type : NodeType) (kind : RefKind) (ref : Option String) : Assembler String := do
  let id ← nextNode type
  ref.toList.forM (insert kind id)
  pure id

/-- Adds a node under the next id. -/
def place (type : NodeType) (kind : RefKind) (ref : String) (node : String → Node) : Assembler Unit := do
  let id ← reserveId type kind ref
  pushNode (node id)

/-- A trigger that can be run becomes a node. -/
def lowerTrigger (catalog : Option CatalogIndex) (t : Trigger) : Assembler Unit :=
  match t.exec with
  | none => pure ()
  | some exec => place .trigger .trigger t.localId fun id => { triggerNode catalog t exec 0 with id := id }

/-- An action that can be run becomes a node. -/
def lowerAction (catalog : Option CatalogIndex) (a : Action) : Assembler Unit :=
  match a.exec with
  | none => pure ()
  | some exec => place .action .action a.localId fun id => { actionNode catalog a exec 0 with id := id }

def reserveParallel (b : ParallelBlock) : Assembler (String × String) := do
  let id ← nextNode .parallel
  let join ← nextNode .join
  b.localId.toList.forM (insert .parallel id)
  b.joinKey?.toList.forM (insert .join join)
  pure (id, join)

/-- Ids given to the blocks in advance. -/
structure Reserved where
  gateways : List String
  parallels : List (String × String)
  loops : List String

def reserve (f : FlowControl) : Assembler Reserved := do
  let gateways ← f.conditions.mapM fun c => reserveId .gatewayIf .gateway c.localId
  let parallels ← f.parallels.mapM reserveParallel
  let loops ← f.loops.mapM fun l => reserveId l.nodeType .loop l.localId
  pure ⟨gateways, parallels, loops⟩

def lowerCondition (c : Conditional) (id path : String) : Assembler Unit := do
  let branches ← c.branches.zipIdx.mapM fun x => do
    let target ← resolve x.1.toRef (indexed (path ++ ".branches") x.2 ++ ".to_ref")
    pure (⟨x.1.name.getD ("branch_" ++ toString (x.2 + 1)), x.1.expr, target⟩ : GatewayBranch)
  let elseTarget ← resolve? c.elseRef (path ++ ".else_ref")
  let source ← resolve? c.incomingRef (path ++ ".incoming_ref")
  wire source fun source => .plain source id
  branches.forM fun b => wire b.target fun target =>
    ⟨id, target, Edge.usualWhen, some b.expr, some b.name⟩
  wire elseTarget fun target => { Link.plain id target with label := some "else" }
  pushNode (blockNode id "If" (.gatewayIf ⟨branches, elseTarget⟩))

def lowerParallel (b : ParallelBlock) (start join path : String) : Assembler Unit := do
  let targets ← b.branches.zipIdx.mapM fun x => resolve x.1 (indexed (path ++ ".branches") x.2)
  let targets := targets.filterMap id
  let source ← resolve? b.incomingRef (path ++ ".incoming_ref")
  wire source fun source => .plain source start
  targets.forM fun target => addEdge { Link.plain start target with label := some "parallel_branch" }
  let next ← resolve? b.outgoingRef (path ++ ".outgoing_ref")
  wire next (Link.plain join)
  pushNode (blockNode start "Fan-out" (.parallel ⟨targets, join⟩))
  pushNode (blockNode join "Join" (.join ⟨.all, start⟩))

def lowerLoop (l : LoopBlock) (id path : String) : Assembler Unit := do
  let body ← resolve? l.bodyRef (path ++ ".body_ref")
  let source ← resolve? l.incomingRef (path ++ ".incoming_ref")
  wire source fun source => .plain source id
  wire body fun target => { Link.plain id target with label := some "loop_body" }
  pushNode (loopNode l id body)

/-- The end of a route, with an error if it stands for nothing. -/
def lowerEnd (ref path what : String) (code : DiagnosticCode) : Assembler (Option String) := do
  let node ← resolve ref path
  if node.isNone then
    report (.error code path ("Route " ++ what ++ " '" ++ ref ++ "' does not exist") none)
  pure node

/-- A route becomes an edge, unless one of its ends stands for nothing. -/
def lowerRoute (r : Route) (path : String) : Assembler Bool := do
  let source ← lowerEnd r.fromRef (path ++ ".from_ref") "source" .missingSourceRef
  let target ← lowerEnd r.toRef (path ++ ".to_ref") "target" .missingTargetRef
  match source, target with
  | some source, some target =>
    addEdge ⟨source, target, r.when.getD Edge.usualWhen, r.condition, r.label⟩
    pure true
  | _, _ => pure false

/-- Draws the blocks under the ids that were reserved for them, and then the routes. -/
def lowerFlow (f : FlowControl) : Assembler Bool := do
  let reserved ← reserve f
  (f.conditions.zip reserved.gateways).zipIdx.forM fun x =>
    lowerCondition x.1.1 x.1.2 (indexed "flow_control.conditions" x.2)
  (f.parallels.zip reserved.parallels).zipIdx.forM fun x =>
    lowerParallel x.1.1 x.1.2.1 x.1.2.2 (indexed "flow_control.parallel_execution" x.2)
  (f.loops.zip reserved.loops).zipIdx.forM fun x =>
    lowerLoop x.1.1 x.1.2 (indexed "flow_control.loops" x.2)
  f.routes.zipIdx.foldlM (fun complete x => do
    let drawn ← lowerRoute x.1 (indexed "flow_control.routes" x.2)
    pure (complete && drawn)) true

def lowerFlow? (flow : Option FlowControl) : Assembler Bool :=
  match flow with
  | some f => lowerFlow f
  | none => pure true

/-- A dependency becomes an edge, unless there is one between the two nodes that is followed on success. -/
def lowerDependency (target ref path : String) : Assembler Unit := do
  match ← resolve ref path with
  | none => pure ()
  | some source =>
    if (← get).hasEdge source target then pure () else addEdge (.plain source target)

def lowerDependencies (a : Action) (i : Nat) : Assembler Unit := do
  match (← get).lookup? a.localId with
  | none => pure ()
  | some target => (a.dependsOn.getD []).zipIdx.forM fun x =>
      lowerDependency target x.1 (indexed (indexed "actions" i ++ ".depends_on") x.2)

/-- Puts the graph of a workflow together and tells whether all of its routes lead somewhere. -/
def lowerWorkflow (catalog : Option CatalogIndex) (w : Workflow) : Assembler Bool := do
  w.triggers.forM (lowerTrigger catalog)
  w.actions.forM (lowerAction catalog)
  let complete ← lowerFlow? w.flowControl
  w.actions.zipIdx.forM fun x => lowerDependencies x.1 x.2
  pure complete

end Assembler

/-- The graph of a workflow put together step by step, and whether all of its routes lead somewhere. -/
def Workflow.assembled (w : Workflow) (catalog : Option CatalogIndex) : Bool × Assembly :=
  (Assembler.lowerWorkflow catalog w).run .start

end Flowgraph
