import Flowgraph.Workflow

/-! The graph that a workflow is run as: nodes with their payloads, edges between them, and what holds
    for the graph as a whole. -/

namespace Flowgraph

open Json

/-- What a node does. -/
inductive NodeType where
  | trigger
  | action
  | gatewayIf
  | parallel
  | join
  | loopWhile
  | loopForeach
  deriving DecidableEq, Repr

namespace NodeType

def name : NodeType → String
  | .trigger => "trigger"
  | .action => "action"
  | .gatewayIf => "gateway_if"
  | .parallel => "parallel"
  | .join => "join"
  | .loopWhile => "loop_while"
  | .loopForeach => "loop_foreach"

def all : List NodeType :=
  [.trigger, .action, .gatewayIf, .parallel, .join, .loopWhile, .loopForeach]

/-- What the ids of nodes of this type start with. Both kinds of loop are numbered together. -/
def idStem : NodeType → String
  | .trigger => "t"
  | .action => "a"
  | .gatewayIf => "g"
  | .parallel => "par"
  | .join => "join"
  | .loopWhile => "loop"
  | .loopForeach => "loop"

end NodeType

/-- The id of the `n`-th node of a stem, counted from one. -/
def nodeId (stem : String) (n : Nat) : String := stem ++ toString n

inductive TriggerKind where
  | scheduleBased
  | eventBased
  deriving DecidableEq, Repr

structure TriggerNode where
  kind : TriggerKind
  provider : String
  toolkit : String
  trigger : String
  connectionId : String
  configuration : Object
  instanceId : Option String
  delivery : Option String
  schedule : Option Object
  deriving DecidableEq

structure InputTemplate where
  required : Object
  optional : Object
  deriving DecidableEq

structure ActionNode where
  provider : String
  tool : String
  action : String
  connectionId : String
  inputTemplate : InputTemplate
  outputVars : List String
  retry : RetryPolicy
  timeoutMs : UInt64
  rateLimit : RateLimit
  deriving DecidableEq

/-- A branch of a gateway; without a target if the workflow names none that exists. -/
structure GatewayBranch where
  name : String
  expr : Value
  target : Option String
  deriving DecidableEq

structure GatewayNode where
  branches : List GatewayBranch
  elseTarget : Option String
  deriving DecidableEq

/-- The start of parallel branches: the nodes they start at, and the node they meet in. -/
structure ParallelNode where
  branches : List String
  join : String
  deriving DecidableEq

/-- How many branches a join waits for. -/
inductive JoinMode where
  | all
  deriving DecidableEq, Repr

structure JoinNode where
  mode : JoinMode
  parallel : String
  deriving DecidableEq

structure LoopWhileNode where
  condition : Value
  bodyStart : Option String
  maxIterations : UInt32
  deriving DecidableEq

structure LoopForeachNode where
  sourceArrayExpr : Value
  itemVar : String
  indexVar : String
  bodyStart : Option String
  maxConcurrency : UInt32
  deriving DecidableEq

/-- The payload of a node. -/
inductive NodeData where
  | trigger (n : TriggerNode)
  | action (n : ActionNode)
  | gatewayIf (n : GatewayNode)
  | parallel (n : ParallelNode)
  | join (n : JoinNode)
  | loopWhile (n : LoopWhileNode)
  | loopForeach (n : LoopForeachNode)
  deriving DecidableEq

def NodeData.type : NodeData → NodeType
  | .trigger _ => .trigger
  | .action _ => .action
  | .gatewayIf _ => .gatewayIf
  | .parallel _ => .parallel
  | .join _ => .join
  | .loopWhile _ => .loopWhile
  | .loopForeach _ => .loopForeach

structure Position where
  x : Double
  y : Double
  deriving DecidableEq, Repr

structure Node where
  id : String
  data : NodeData
  label : String
  icon : Option String
  position : Option Position
  deriving DecidableEq

/-- An edge is followed when its source ends as `when` says and the condition, if any, holds. -/
structure Edge where
  id : String
  source : String
  target : String
  when : String
  condition : Option Value
  label : Option String
  deriving DecidableEq

/-- How a source has to end for an edge that does not say. -/
def Edge.usualWhen : String := "success"

/-- What holds for every node that does not say otherwise. -/
structure Globals where
  retry : Option RetryPolicy
  timeoutMs : Option UInt64
  rateLimit : Option RateLimit
  maxParallelism : UInt32
  deriving DecidableEq, Repr

structure Viewport where
  x : Double
  y : Double
  zoom : Double
  deriving DecidableEq, Repr

/-- The origin, at natural size. -/
def Viewport.initial : Viewport := ⟨Double.ofInt 0, Double.ofInt 0, Double.ofInt 1⟩

/-- Who computes the real geometry of the graph. -/
inductive LayoutKind where
  | dagre
  | elk
  | manual
  deriving DecidableEq, Repr

/-- How the graph is shown. -/
structure UiHints where
  layout : LayoutKind
  viewport : Viewport
  extra : Object
  deriving DecidableEq

structure Dag where
  workflowId : String
  version : Version
  userId : Option String
  nodes : List Node
  edges : List Edge
  globals : Globals
  ui : UiHints
  deriving DecidableEq

namespace Dag

/-- The first node of an id. -/
def node? (d : Dag) (id : String) : Option Node := d.nodes.find? (·.id == id)

def nodesOfType (d : Dag) (type : NodeType) : List Node := d.nodes.filter (·.data.type = type)

def outgoing (d : Dag) (id : String) : List Edge := d.edges.filter (·.source == id)

end Dag

end Flowgraph
