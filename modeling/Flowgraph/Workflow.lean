import Flowgraph.Policy

/-! Workflow documents. One shape serves two purposes: a *template*, whose triggers and actions name
    entries of a catalog, and an *executable*, where each of them also carries an exec block that says
    how to run it. -/

namespace Flowgraph

open Json

/-- A workflow's version. -/
inductive Version where
  | integer (n : Int64)
  | float (x : Double)
  | text (s : String)
  | flag (b : Bool)
  deriving DecidableEq, Repr

/-- The version as text, as it enters the identity of a trigger subscription. A double keeps its
    fractional part. -/
def Version.display : Version → String
  | .integer n => toString n.toInt
  | .float x => x.text
  | .text s => s
  | .flag true => "True"
  | .flag false => "False"

/-- How to subscribe to a trigger. -/
structure TriggerExec where
  provider : String
  triggerSlug : String
  configuration : Object
  connectionId : String
  instanceId : Option String
  deriving DecidableEq

/-- An event that starts the workflow. -/
structure Trigger where
  localId : String
  toolkitSlug : String
  triggerRef : String
  delivery : Option String
  configuration : Object
  connectionHint : Option String
  kind : Option String
  schedule : Option Object
  name : Option String
  exec : Option TriggerExec
  extra : Object
  deriving DecidableEq

/-- A trigger that goes off by the clock. -/
def Trigger.isScheduled (t : Trigger) : Bool := t.kind == some "scheduled"

/-- How to run an action. -/
structure ActionExec where
  provider : String
  actionSlug : String
  connectionId : String
  requiredInputs : Object
  optionalInputs : Object
  retry : RetryPolicy
  timeoutMs : UInt64
  rateLimit : RateLimit
  deriving DecidableEq

/-- A step of the workflow. -/
structure Action where
  localId : String
  toolkitSlug : String
  actionRef : String
  requiredInputs : Object
  optionalInputs : Object
  retry : Option RetryPolicy
  timeoutMs : Option UInt64
  rateLimit : Option RateLimit
  dependsOn : Option (List String)
  connectionHint : Option String
  outputVars : Option (List String)
  name : Option String
  exec : Option ActionExec
  extra : Object
  deriving DecidableEq

/-- One way out of a condition. The expression is left to who runs the workflow. -/
structure ConditionBranch where
  name : Option String
  expr : Value
  toRef : String
  deriving DecidableEq

/-- Takes the first branch whose expression holds. -/
structure Conditional where
  localId : Option String
  incomingRef : Option String
  branches : List ConditionBranch
  elseRef : Option String
  deriving DecidableEq

/-- Runs branches side by side and waits for all of them. -/
structure ParallelBlock where
  localId : Option String
  incomingRef : Option String
  branches : List String
  outgoingRef : Option String
  joinRef : Option String
  deriving DecidableEq

/-- The reference of the place where the branches meet: its own, or one made from the block's. -/
def ParallelBlock.joinKey? (b : ParallelBlock) : Option String :=
  b.joinRef <|> b.localId.map (· ++ ".join")

/-- Repeats its body while a condition holds. -/
structure WhileLoop where
  localId : Option String
  incomingRef : Option String
  condition : Value
  bodyRef : Option String
  maxIterations : Option UInt32
  deriving DecidableEq

/-- Repeats its body for each item of a list. -/
structure ForeachLoop where
  localId : Option String
  incomingRef : Option String
  sourceArrayExpr : Value
  itemVar : Option String
  indexVar : Option String
  bodyRef : Option String
  maxConcurrency : Option UInt32
  deriving DecidableEq

inductive LoopBlock where
  | whileLoop (l : WhileLoop)
  | foreachLoop (l : ForeachLoop)
  deriving DecidableEq

namespace LoopBlock

def localId : LoopBlock → Option String
  | .whileLoop l => l.localId
  | .foreachLoop l => l.localId

def incomingRef : LoopBlock → Option String
  | .whileLoop l => l.incomingRef
  | .foreachLoop l => l.incomingRef

def bodyRef : LoopBlock → Option String
  | .whileLoop l => l.bodyRef
  | .foreachLoop l => l.bodyRef

end LoopBlock

/-- A connection between two places of the workflow. -/
structure Route where
  fromRef : String
  toRef : String
  when : Option String
  condition : Option Value
  label : Option String
  deriving DecidableEq

/-- The control flow over triggers and actions. A reference names a trigger, an action or another
    block by its local id. -/
structure FlowControl where
  conditions : List Conditional
  parallels : List ParallelBlock
  loops : List LoopBlock
  routes : List Route
  deriving DecidableEq

/-- A workflow document; members it does not know are carried along. -/
structure Workflow where
  id : String
  version : Version
  triggers : List Trigger
  actions : List Action
  flowControl : Option FlowControl
  policies : Option Policies
  extra : Object
  deriving DecidableEq

/-- The path of the `i`-th entry of a list in the document. -/
def indexed (list : String) (i : Nat) : String := list ++ "[" ++ toString i ++ "]"

/-- Path and local id of each trigger and action without an exec block. -/
def Workflow.missingExec (w : Workflow) : List (String × String) :=
  (w.triggers.zipIdx.filter (·.1.exec.isNone)).map (fun t => (indexed "triggers" t.2, t.1.localId))
    ++ (w.actions.zipIdx.filter (·.1.exec.isNone)).map
      (fun a => (indexed "actions" a.2, a.1.localId))

end Flowgraph
