import Flowgraph.Coercion
import Flowgraph.Context
import Flowgraph.Digest
import Flowgraph.Workflow

/-! Triggers and actions against the catalog and the user's connections. What cannot be resolved is
    reported and left as it is; the others are not touched by it. -/

namespace Flowgraph

open Json

/-- What identifies a trigger subscription, in one text. -/
def instanceMaterial (userId workflowId version localId : String) : String :=
  userId ++ ":" ++ workflowId ++ ":" ++ version ++ ":" ++ localId

/-- The id of a trigger subscription: the same workflow compiled again for the same user has the same
    ones. -/
def instanceId (userId workflowId version localId : String) : String :=
  Digest.ofText (instanceMaterial userId workflowId version localId)

namespace Context

/-- The subscription id of a trigger, where there is a user and the workflow has a name. -/
def instanceId? (c : Context) (workflowId : String) (version : Version) (localId : String) :
    Option String :=
  match c.userId? with
  | some user =>
    if user ≠ "" ∧ workflowId ≠ "" then some (instanceId user workflowId version.display localId)
    else none
  | none => none

/-- The connection for an entry of the catalog; reported if there is none. -/
def connectionFor (c : Context) (hit : CatalogHit) (hint : Option String) (path : String) :
    Traced (Option String) := do
  let found := c.connection? hit.provider hint
  if found.isNone then
    Traced.error .missingConnection path
      ("No connection found for provider '" ++ hit.provider ++ "'")
      (some ("Connect a '" ++ hit.provider ++ "' account first"))
  pure found

/-- A delivery that was asked for and that the entry does not support. -/
def refusedDelivery? (t : Trigger) (e : CatalogEntry) : Option String :=
  t.delivery.filter fun d => !e.supportsDelivery d

/-- The exec block of a trigger found in the catalog. -/
def triggerExec (c : Context) (workflowId : String) (version : Version) (path : String)
    (t : Trigger) (hit : CatalogHit) (connectionId : String) : Traced TriggerExec := do
  let params ← Coercion.coerceParams t.configuration hit.entry.params (path ++ ".configuration")
  pure {
    provider := hit.provider
    triggerSlug := hit.entry.displaySlug
    configuration := Coercion.withDefaults hit.entry.params params
    connectionId := connectionId
    instanceId := c.instanceId? workflowId version t.localId }

/-- Gives a trigger its exec block: found in the catalog, delivered in a supported way, with a
    connection to its provider. -/
def resolveTrigger (c : Context) (workflowId : String) (version : Version) (path : String)
    (t : Trigger) : Traced Trigger :=
  match c.index.find? .trigger t.toolkitSlug t.triggerRef with
  | none => do
    Traced.error .unknownTrigger path
      ("Trigger '" ++ t.triggerRef ++ "' not found in toolkit '" ++ t.toolkitSlug ++ "'")
      (some "Check toolkit_slug and trigger_ref against the catalog")
    pure t
  | some hit => match refusedDelivery? t hit.entry with
    | some delivery => do
      Traced.error .unsupportedDelivery (path ++ ".delivery")
        ("Delivery '" ++ delivery ++ "' is not supported by trigger '" ++ hit.entry.displaySlug
          ++ "'")
        (some ("Supported: " ++ String.intercalate ", " hit.entry.supportedDelivery))
      pure t
    | none => do
      match ← c.connectionFor hit t.connectionHint path with
      | none => pure t
      | some connectionId =>
        let exec ← c.triggerExec workflowId version path t hit connectionId
        pure { t with exec := some exec }

/-- A value that is not `null`. -/
def present (v : Option Value) : Option Value := v.filter fun v => !v.isNull

/-- The inputs of an action while they are sorted: the required ones found so far, and the optional
    ones not yet used for them. -/
structure SplitInputs where
  required : Object
  leftover : Object
  deriving DecidableEq

/-- Looks for a required parameter: in the required inputs, then in the optional ones, from where it is
    moved, then in the catalog. -/
def splitRequired (requiredInputs : Object) (path : String) (s : SplitInputs)
    (param : String × ParamSpec) : Traced SplitInputs :=
  let (name, spec) := param
  let paramPath := path ++ ".required_inputs." ++ name
  let given := present (Object.member? requiredInputs name)
  let moved := present (Object.member? s.leftover name)
  let leftover := if given.isSome then s.leftover else Object.without name s.leftover
  match given <|> moved <|> spec.default with
  | some v => do
    let v ← Coercion.coerceParam v spec paramPath
    pure ⟨Object.put name v s.required, leftover⟩
  | none => do
    Traced.error .missingRequiredParam paramPath
      ("Required parameter '" ++ name ++ "' has no value")
      (some ("Provide '" ++ name ++ "' in required_inputs or through an answer"))
    pure ⟨s.required, leftover⟩

/-- Whether the catalog declares a parameter required. -/
def isRequired (spec : Table ParamSpec) (name : String) : Bool :=
  match Table.entry? spec name with
  | some p => p.required
  | none => false

/-- Takes over a required input that the catalog does not declare required. -/
def splitFurther (spec : Table ParamSpec) (path : String) (required : Object)
    (input : String × Value) : Traced Object :=
  let (name, v) := input
  if isRequired spec name then pure required
  else do
    let v ← Coercion.coerceDeclared v (Table.entry? spec name)
      (path ++ ".required_inputs." ++ name)
    pure (Object.put name v required)

/-- The required and the optional inputs of an action's exec block. -/
def splitInputs (a : Action) (spec : Table ParamSpec) (path : String) :
    Traced (Object × Object) := do
  let declared := spec.filter (·.2.required)
  let s ← declared.foldlM (splitRequired a.requiredInputs path) ⟨[], a.optionalInputs⟩
  let required ← a.requiredInputs.foldlM (splitFurther spec path) s.required
  let optional ← Coercion.coerceParams s.leftover spec (path ++ ".optional_inputs")
  pure (required, optional)

/-- The exec block of an action found in the catalog. Each policy comes from the first of: the action, the
    defaults of the context, the catalog, the built-in ones. -/
def actionExec (c : Context) (path : String) (a : Action) (hit : CatalogHit)
    (connectionId : String) : Traced ActionExec := do
  let (required, optional) ← splitInputs a hit.entry.params path
  let catalog := hit.entry.policy
  pure {
    provider := hit.provider
    actionSlug := hit.entry.displaySlug
    connectionId := connectionId
    requiredInputs := required
    optionalInputs := optional
    retry := (a.retry <|> c.defaults.retry <|> catalog.retry).getD .builtin
    timeoutMs :=
      (a.timeoutMs <|> c.defaults.timeoutMs <|> catalog.timeoutMs).getD builtinTimeoutMs
    rateLimit := (a.rateLimit <|> c.defaults.rateLimit <|> catalog.rateLimit).getD .builtin }

/-- Gives an action its exec block: found in the catalog, with a connection to its provider. -/
def resolveAction (c : Context) (path : String) (a : Action) : Traced Action :=
  match c.index.find? .action a.toolkitSlug a.actionRef with
  | none => do
    Traced.error .unknownAction path
      ("Action '" ++ a.actionRef ++ "' not found in toolkit '" ++ a.toolkitSlug ++ "'")
      (some "Check toolkit_slug and action_ref against the catalog")
    pure a
  | some hit => do
    match ← c.connectionFor hit a.connectionHint path with
    | none => pure a
    | some connectionId =>
      let exec ← c.actionExec path a hit connectionId
      pure { a with exec := some exec }

/-- Fills the workflow's policies from the defaults of the context, if those set any. -/
def injectDefaults (c : Context) (w : Workflow) : Workflow :=
  if c.defaults = .none then w
  else { w with policies := some ((w.policies.getD .none).fillFrom c.defaults) }

/-- Resolves all triggers, then all actions, and fills in the default policies. -/
def resolve (c : Context) (w : Workflow) : Traced Workflow := do
  let triggers ← w.triggers.zipIdx.mapM fun (t, i) =>
    c.resolveTrigger w.id w.version (indexed "triggers" i) t
  let actions ← w.actions.zipIdx.mapM fun (a, i) => c.resolveAction (indexed "actions" i) a
  pure (c.injectDefaults { w with triggers := triggers, actions := actions })

end Context

end Flowgraph
