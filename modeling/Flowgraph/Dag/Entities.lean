import Flowgraph.Catalog
import Flowgraph.Dag.References

/-! The nodes of triggers and actions. -/

namespace Flowgraph

/-- The name of a trigger or action: its own, the catalog's, or toolkit and slug. -/
def entityLabel (name : Option String) (hit : Option CatalogHit) (toolkit slug : String) : String :=
  (name <|> hit.bind (·.entry.name)).getD (toolkit ++ ": " ++ slug)

/-- The icon of a trigger or action: the catalog's for it, or for its toolkit. -/
def entityIcon (hit : Option CatalogHit) : Option String :=
  hit.bind fun h => h.entry.icon <|> h.toolkitIcon

def triggerNode (catalog : Option CatalogIndex) (t : Trigger) (exec : TriggerExec) (i : Nat) :
    Node :=
  let hit := catalog.bind (·.find? .trigger t.toolkitSlug t.triggerRef)
  { id := NodeType.trigger.idAt i
    data := .trigger {
      kind := if t.isScheduled then .scheduleBased else .eventBased
      provider := exec.provider
      toolkit := t.toolkitSlug
      trigger := exec.triggerSlug
      connectionId := exec.connectionId
      configuration := exec.configuration
      instanceId := exec.instanceId
      delivery := t.delivery
      schedule := t.schedule }
    label := entityLabel t.name hit t.toolkitSlug exec.triggerSlug
    icon := entityIcon hit
    position := none }

def actionNode (catalog : Option CatalogIndex) (a : Action) (exec : ActionExec) (i : Nat) : Node :=
  let hit := catalog.bind (·.find? .action a.toolkitSlug a.actionRef)
  { id := NodeType.action.idAt i
    data := .action {
      provider := exec.provider
      tool := a.toolkitSlug
      action := exec.actionSlug
      connectionId := exec.connectionId
      inputTemplate := ⟨exec.requiredInputs, exec.optionalInputs⟩
      outputVars := a.outputVars.getD []
      retry := exec.retry
      timeoutMs := exec.timeoutMs
      rateLimit := exec.rateLimit }
    label := entityLabel a.name hit a.toolkitSlug exec.actionSlug
    icon := entityIcon hit
    position := none }

/-- The nodes of the triggers, then those of the actions. -/
def Workflow.entityNodes (w : Workflow) (catalog : Option CatalogIndex) : List Node :=
  w.runnableTriggers.zipIdx.map (fun ((t, exec), i) => triggerNode catalog t exec i)
    ++ w.runnableActions.zipIdx.map (fun ((a, exec), i) => actionNode catalog a exec i)

end Flowgraph
