import Flowgraph.Workflow

/-! Workflow documents as JSON. -/

namespace Flowgraph

open Json Json.Record

/-- A whole number that 64 bits with a sign hold is an integer version, another number a double. -/
def Version.ofValue : Value → Except DecodeError Version
  | .num (.int n) =>
    .ok (if int64Min ≤ n ∧ n ≤ int64Max then .integer (Int64.ofInt n) else .float (Double.ofInt n))
  | .num (.float x) => .ok (.float x)
  | .str s => .ok (.text s)
  | .bool b => .ok (.flag b)
  | _ => .error (.noVariant "Version")

def Version.codec : Codec Version where
  encode
    | .integer n => .int n.toInt
    | .float x => .float x
    | .text s => .str s
    | .flag b => .bool b
  decode := .setAside Version.ofValue

def TriggerExec.codec : Codec TriggerExec := Record.codec "TriggerExec" <|
  TriggerExec.mk
    <$> field "provider" TriggerExec.provider .string
    <*> field "trigger_slug" TriggerExec.triggerSlug .string
    <*> field "configuration" TriggerExec.configuration .object
    <*> field "connection_id" TriggerExec.connectionId .string
    <*> maybe "trigger_instance_id" TriggerExec.instanceId .string

def Trigger.codec : Codec Trigger := Record.codec "Trigger" <|
  Trigger.mk
    <$> field "local_id" Trigger.localId .string
    <*> defaulted "toolkit_slug" Trigger.toolkitSlug .string ""
    <*> defaulted "trigger_ref" Trigger.triggerRef .string ""
    <*> maybe "delivery" Trigger.delivery .string
    <*> defaulted "configuration" Trigger.configuration .object []
    <*> maybe "connection_hint" Trigger.connectionHint .string
    <*> maybe "type" Trigger.kind .string
    <*> maybe "schedule" Trigger.schedule .object
    <*> maybe "name" Trigger.name .string
    <*> maybe "exec" Trigger.exec TriggerExec.codec
    <*> rest Trigger.extra

def ActionExec.codec : Codec ActionExec := Record.codec "ActionExec" <|
  ActionExec.mk
    <$> field "provider" ActionExec.provider .string
    <*> field "action_slug" ActionExec.actionSlug .string
    <*> field "connection_id" ActionExec.connectionId .string
    <*> field "required_inputs" ActionExec.requiredInputs .object
    <*> field "optional_inputs" ActionExec.optionalInputs .object
    <*> field "retry" ActionExec.retry RetryPolicy.codec
    <*> field "timeout_ms" ActionExec.timeoutMs .uint64
    <*> field "rate_limit" ActionExec.rateLimit RateLimit.codec

def Action.codec : Codec Action := Record.codec "Action" <|
  Action.mk
    <$> field "local_id" Action.localId .string
    <*> defaulted "toolkit_slug" Action.toolkitSlug .string ""
    <*> defaulted "action_ref" Action.actionRef .string ""
    <*> defaulted "required_inputs" Action.requiredInputs .object []
    <*> defaulted "optional_inputs" Action.optionalInputs .object []
    <*> maybe "retry" Action.retry RetryPolicy.codec
    <*> maybe "timeout_ms" Action.timeoutMs .lenientUInt64
    <*> maybe "rate_limit" Action.rateLimit RateLimit.codec
    <*> maybe "depends_on" Action.dependsOn (.list .string)
    <*> maybe "connection_hint" Action.connectionHint .string
    <*> maybe "output_vars" Action.outputVars (.list .string)
    <*> maybe "name" Action.name .string
    <*> maybe "exec" Action.exec ActionExec.codec
    <*> rest Action.extra

def ConditionBranch.codec : Codec ConditionBranch := Record.codec "ConditionBranch" <|
  ConditionBranch.mk
    <$> maybe "name" ConditionBranch.name .string
    <*> defaulted "expr" ConditionBranch.expr .value .null
    <*> defaulted "to_ref" ConditionBranch.toRef .string ""

def Conditional.codec : Codec Conditional := Record.codec "Conditional" <|
  Conditional.mk
    <$> maybe "local_id" Conditional.localId .string
    <*> maybe "incoming_ref" Conditional.incomingRef .string
    <*> defaulted "branches" Conditional.branches (.list ConditionBranch.codec) []
    <*> maybe "else_ref" Conditional.elseRef .string

def ParallelBlock.codec : Codec ParallelBlock := Record.codec "ParallelBlock" <|
  ParallelBlock.mk
    <$> maybe "local_id" ParallelBlock.localId .string
    <*> maybe "incoming_ref" ParallelBlock.incomingRef .string
    <*> defaulted "branches" ParallelBlock.branches (.list .string) []
    <*> maybe "outgoing_ref" ParallelBlock.outgoingRef .string
    <*> maybe "join_ref" ParallelBlock.joinRef .string

def WhileLoop.codec : Codec WhileLoop := Record.codec "WhileLoop" <|
  WhileLoop.mk
    <$> maybe "local_id" WhileLoop.localId .string
    <*> maybe "incoming_ref" WhileLoop.incomingRef .string
    <*> defaulted "condition" WhileLoop.condition .value .null
    <*> maybe "body_ref" WhileLoop.bodyRef .string
    <*> maybe "max_iterations" WhileLoop.maxIterations .lenientUInt32

def ForeachLoop.codec : Codec ForeachLoop := Record.codec "ForeachLoop" <|
  ForeachLoop.mk
    <$> maybe "local_id" ForeachLoop.localId .string
    <*> maybe "incoming_ref" ForeachLoop.incomingRef .string
    <*> defaulted "source_array_expr" ForeachLoop.sourceArrayExpr .value .null
    <*> maybe "item_var" ForeachLoop.itemVar .string
    <*> maybe "index_var" ForeachLoop.indexVar .string
    <*> maybe "body_ref" ForeachLoop.bodyRef .string
    <*> maybe "max_concurrency" ForeachLoop.maxConcurrency .lenientUInt32

/-- Puts the kind of a tagged datum in front of its members. -/
def withKind (kind : String) : Value → Value
  | .obj members => .obj (("kind", .str kind) :: members)
  | v => v

/-- The loop of a kind, from what goes with the kind. -/
def LoopBlock.ofKind (kind body : Value) : Except DecodeError LoopBlock := do
  match kind with
  | .str name =>
    let isWhile ← Decoder.variantName [("while", true), ("foreach", false)] none name
    if isWhile then (Decoder.ofSetAside WhileLoop.codec.decode body).map .whileLoop
    else (Decoder.ofSetAside ForeachLoop.codec.decode body).map .foreachLoop
  | kind => throw (mismatch "variant identifier" kind.toTree)

/-- A loop names its kind: as a member, or as the first item of a list. -/
def LoopBlock.ofValue : Value → Except DecodeError LoopBlock
  | .obj members => match Object.member? members "kind" with
    | some kind => ofKind kind (.obj (Object.without "kind" members))
    | none => .error (.missingField "kind")
  | .arr (kind :: body) => ofKind kind (.arr body)
  | .arr [] => .error (.missingField "kind")
  | v => .error (mismatch "internally tagged enum LoopBlock" v.toTree)

def LoopBlock.codec : Codec LoopBlock where
  encode
    | .whileLoop l => withKind "while" (WhileLoop.codec.encode l)
    | .foreachLoop l => withKind "foreach" (ForeachLoop.codec.encode l)
  decode := .setAside LoopBlock.ofValue

def Route.codec : Codec Route := Record.codec "Route" <|
  Route.mk
    <$> defaulted "from_ref" Route.fromRef .string ""
    <*> defaulted "to_ref" Route.toRef .string ""
    <*> maybe "when" Route.when .string
    <*> maybe "condition" Route.condition .value
    <*> maybe "label" Route.label .string

def FlowControl.codec : Codec FlowControl := Record.codec "FlowControl" <|
  FlowControl.mk
    <$> unlessEmpty "conditions" FlowControl.conditions Conditional.codec
    <*> unlessEmpty "parallel_execution" FlowControl.parallels ParallelBlock.codec
    <*> unlessEmpty "loops" FlowControl.loops LoopBlock.codec
    <*> unlessEmpty "routes" FlowControl.routes Route.codec

def Workflow.codec : Codec Workflow := Record.codec "Workflow" <|
  Workflow.mk
    <$> field "workflow_id" Workflow.id .string
    <*> field "version" Workflow.version Version.codec
    <*> field "triggers" Workflow.triggers (.list Trigger.codec)
    <*> field "actions" Workflow.actions (.list Action.codec)
    <*> maybe "flow_control" Workflow.flowControl FlowControl.codec
    <*> maybe "policies" Workflow.policies Policies.codec
    <*> rest Workflow.extra

/-- The workflow of a value. -/
def Workflow.ofValue (v : Value) : Except DecodeError Workflow :=
  Decoder.ofValue Workflow.codec.decode v

/-- The canonical value of a workflow. -/
def Workflow.toValue (w : Workflow) : Value := Workflow.codec.toValue w

end Flowgraph
