import Flowgraph.Dag
import Flowgraph.Workflow.Codec

/-! Graphs as JSON. -/

namespace Flowgraph

open Json Json.Record

def NodeType.codec : Codec NodeType := .variant (NodeType.all.map fun t => (t.name, t)) none
  NodeType.name

def TriggerKind.codec : Codec TriggerKind :=
  .variant [("schedule_based", .scheduleBased), ("event_based", .eventBased)] none fun
    | .scheduleBased => "schedule_based"
    | .eventBased => "event_based"

def TriggerNode.codec : Codec TriggerNode := Record.codec "TriggerNode" <|
  TriggerNode.mk
    <$> field "kind" TriggerNode.kind TriggerKind.codec
    <*> field "provider" TriggerNode.provider .string
    <*> field "toolkit" TriggerNode.toolkit .string
    <*> field "trigger" TriggerNode.trigger .string
    <*> field "connection_id" TriggerNode.connectionId .string
    <*> field "configuration" TriggerNode.configuration .object
    <*> maybe "trigger_instance_id" TriggerNode.instanceId .string
    <*> maybe "delivery" TriggerNode.delivery .string
    <*> maybe "schedule" TriggerNode.schedule .object

def InputTemplate.codec : Codec InputTemplate := Record.codec "InputTemplate" <|
  InputTemplate.mk
    <$> field "required" InputTemplate.required .object
    <*> field "optional" InputTemplate.optional .object

def ActionNode.codec : Codec ActionNode := Record.codec "ActionNode" <|
  ActionNode.mk
    <$> field "provider" ActionNode.provider .string
    <*> field "tool" ActionNode.tool .string
    <*> field "action" ActionNode.action .string
    <*> field "connection_id" ActionNode.connectionId .string
    <*> field "input_template" ActionNode.inputTemplate InputTemplate.codec
    <*> field "output_vars" ActionNode.outputVars (.list .string)
    <*> field "retry" ActionNode.retry RetryPolicy.codec
    <*> field "timeout_ms" ActionNode.timeoutMs .uint64
    <*> field "rate_limit" ActionNode.rateLimit RateLimit.codec

def GatewayBranch.codec : Codec GatewayBranch := Record.codec "GatewayBranch" <|
  GatewayBranch.mk
    <$> field "name" GatewayBranch.name .string
    <*> field "expr" GatewayBranch.expr .value
    <*> maybe "to" GatewayBranch.target .string

def GatewayNode.codec : Codec GatewayNode := Record.codec "GatewayNode" <|
  GatewayNode.mk
    <$> field "branches" GatewayNode.branches (.list GatewayBranch.codec)
    <*> maybe "else_to" GatewayNode.elseTarget .string

def ParallelNode.codec : Codec ParallelNode := Record.codec "ParallelNode" <|
  ParallelNode.mk
    <$> field "branches" ParallelNode.branches (.list .string)
    <*> field "join" ParallelNode.join .string

def JoinMode.codec : Codec JoinMode := .variant [("all", .all)] none fun | .all => "all"

def JoinNode.codec : Codec JoinNode := Record.codec "JoinNode" <|
  JoinNode.mk
    <$> field "mode" JoinNode.mode JoinMode.codec
    <*> field "parallel" JoinNode.parallel .string

def LoopWhileNode.codec : Codec LoopWhileNode := Record.codec "LoopWhileNode" <|
  LoopWhileNode.mk
    <$> field "condition" LoopWhileNode.condition .value
    <*> maybe "body_start" LoopWhileNode.bodyStart .string
    <*> field "max_iterations" LoopWhileNode.maxIterations .uint32

def LoopForeachNode.codec : Codec LoopForeachNode := Record.codec "LoopForeachNode" <|
  LoopForeachNode.mk
    <$> field "source_array_expr" LoopForeachNode.sourceArrayExpr .value
    <*> field "item_var" LoopForeachNode.itemVar .string
    <*> field "index_var" LoopForeachNode.indexVar .string
    <*> maybe "body_start" LoopForeachNode.bodyStart .string
    <*> field "max_concurrency" LoopForeachNode.maxConcurrency .uint32

namespace NodeData

/-- The payload without its type. -/
def encodePayload : NodeData → Value
  | .trigger n => TriggerNode.codec.encode n
  | .action n => ActionNode.codec.encode n
  | .gatewayIf n => GatewayNode.codec.encode n
  | .parallel n => ParallelNode.codec.encode n
  | .join n => JoinNode.codec.encode n
  | .loopWhile n => LoopWhileNode.codec.encode n
  | .loopForeach n => LoopForeachNode.codec.encode n

/-- The payload of a type. -/
def decodePayload (type : NodeType) (v : Value) : Except DecodeError NodeData :=
  match type with
  | .trigger => (Decoder.ofSetAside TriggerNode.codec.decode v).map .trigger
  | .action => (Decoder.ofSetAside ActionNode.codec.decode v).map .action
  | .gatewayIf => (Decoder.ofSetAside GatewayNode.codec.decode v).map .gatewayIf
  | .parallel => (Decoder.ofSetAside ParallelNode.codec.decode v).map .parallel
  | .join => (Decoder.ofSetAside JoinNode.codec.decode v).map .join
  | .loopWhile => (Decoder.ofSetAside LoopWhileNode.codec.decode v).map .loopWhile
  | .loopForeach => (Decoder.ofSetAside LoopForeachNode.codec.decode v).map .loopForeach

/-- Type and payload stand side by side in a node. -/
def toMembers (d : NodeData) : Object :=
  [("type", .str d.type.name), ("data", d.encodePayload)]

def ofMembers (o : Object) : Except DecodeError NodeData := do
  match Object.member? o "type" with
  | none => throw (.missingField "type")
  | some tag =>
    let type ← Decoder.ofSetAside NodeType.codec.decode tag
    match Object.member? o "data" with
    | none => throw (.missingField "data")
    | some payload => decodePayload type payload

end NodeData

def Position.codec : Codec Position := Record.codec "Position" <|
  Position.mk
    <$> field "x" Position.x .double
    <*> field "y" Position.y .double

def Node.codec : Codec Node := Record.codec "Node" <|
  Node.mk
    <$> field "id" Node.id .string
    <*> gathered Node.data NodeData.toMembers NodeData.ofMembers
    <*> field "label" Node.label .string
    <*> maybe "icon" Node.icon .string
    <*> maybe "position" Node.position Position.codec

def Edge.codec : Codec Edge := Record.codec "Edge" <|
  Edge.mk
    <$> field "id" Edge.id .string
    <*> field "source" Edge.source .string
    <*> field "target" Edge.target .string
    <*> defaulted "when" Edge.when .string Edge.usualWhen
    <*> maybe "condition" Edge.condition .value
    <*> maybe "label" Edge.label .string

def Globals.codec : Codec Globals := Record.codec "Globals" <|
  Globals.mk
    <$> maybe "retry" Globals.retry RetryPolicy.codec
    <*> maybe "timeout_ms" Globals.timeoutMs .uint64
    <*> maybe "rate_limit" Globals.rateLimit RateLimit.codec
    <*> field "max_parallelism" Globals.maxParallelism .uint32

def Viewport.codec : Codec Viewport := Record.codec "Viewport" <|
  Viewport.mk
    <$> field "x" Viewport.x .double
    <*> field "y" Viewport.y .double
    <*> field "zoom" Viewport.zoom .double

def LayoutKind.name : LayoutKind → String
  | .dagre => "dagre"
  | .elk => "elk"
  | .manual => "manual"

def LayoutKind.codec : Codec LayoutKind :=
  .variant [("dagre", .dagre), ("elk", .elk), ("manual", .manual)] none LayoutKind.name

def UiHints.codec : Codec UiHints := Record.codec "UiHints" <|
  UiHints.mk
    <$> field "layout" UiHints.layout LayoutKind.codec
    <*> field "viewport" UiHints.viewport Viewport.codec
    <*> rest UiHints.extra

def Dag.codec : Codec Dag := Record.codec "DagDocument" <|
  Dag.mk
    <$> field "workflow_id" Dag.workflowId .string
    <*> field "version" Dag.version Version.codec
    <*> maybe "user_id" Dag.userId .string
    <*> field "nodes" Dag.nodes (.list Node.codec)
    <*> field "edges" Dag.edges (.list Edge.codec)
    <*> field "globals" Dag.globals Globals.codec
    <*> field "ui" Dag.ui UiHints.codec

/-- The graph of a value. -/
def Dag.ofValue (v : Value) : Except DecodeError Dag := Decoder.ofValue Dag.codec.decode v

/-- The canonical value of a graph. -/
def Dag.toValue (d : Dag) : Value := Dag.codec.toValue d

end Flowgraph
