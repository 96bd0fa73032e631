import Flowgraph.Proofs.Acceptance
import Flowgraph.Proofs.Catalog
import Flowgraph.Proofs.Materializing
import Flowgraph.Proofs.PolicyNumbers

/-! The report of a compilation accounts for every trigger and action: each is found in the catalog, delivered
    and connected, in this order, or has one error for the first of these that fails and one more for the
    exec block it lacks. Without the latter the document is handed out. -/

namespace Flowgraph

open Json

/-! ### Connections -/

namespace Context

/-- The connection chosen for a provider: the hinted one if it is with the provider, else the first one
    that is. -/
inductive Chooses (c : Context) (provider : String) (hint : Option String) : String → Prop where
  | hinted {id : String} {conn : Connection} (named : hint = some id)
      (there : c.connections.entry? id = some conn) (own : conn.provider = provider) :
      Chooses c provider hint id
  | first {id : String} {conn : Connection} {before after : Connections}
      (unhinted : ∀ id conn, hint = some id → c.connections.entry? id = some conn →
        conn.provider ≠ provider)
      (there : c.connections = before ++ (id, conn) :: after) (own : conn.provider = provider)
      (earliest : ∀ x ∈ before, x.2.provider ≠ provider) : Chooses c provider hint id

theorem chooses_of_connection? {c : Context} {provider : String} {hint : Option String}
    {id : String} (h : c.connection? provider hint = some id) : c.Chooses provider hint id := by
  simp only [connection?, Option.orElse_eq_orElse, Option.orElse_eq_or, Option.or_eq_some_iff] at h
  rcases h with h | ⟨unhinted, h⟩
  · obtain ⟨hinted, named, h⟩ := Option.bind_eq_some_iff.mp h
    split at h
    · rename_i conn there
      obtain ⟨own, same⟩ := Option.ite_none_right_eq_some.mp h
      cases same
      exact .hinted named there own
    · cases h
  · obtain ⟨⟨id, conn⟩, found, rfl⟩ := Option.map_eq_some_iff.mp h
    obtain ⟨own, before, after, there, earliest⟩ := List.find?_eq_some_iff_append.mp found
    refine .first ?_ there (by simpa using own) fun x hx => by simpa using earliest x hx
    rintro other conn' rfl entry own'
    simp [entry, own'] at unhinted

theorem not_connects {c : Context} {provider : String} :
    (∀ id, ¬c.Connects id provider) ↔ ∀ x ∈ c.connections, x.2.provider ≠ provider := by
  constructor
  · intro h x hx own
    exact h x.1 ⟨x.2, hx, own⟩
  · rintro h id ⟨conn, there, own⟩
    exact h _ there own

theorem instanceId?_isSome (c : Context) (workflowId : String) (version : Version)
    (localId : String) :
    (c.instanceId? workflowId version localId).isSome = true
      ↔ workflowId ≠ "" ∧ ∃ user, c.userId? = some user ∧ user ≠ "" := by
  rw [instanceId?]
  cases c.userId? with
  | none => simp
  | some user => by_cases named : user = "" <;> by_cases workflow : workflowId = "" <;> simp [*]

end Context

/-! ### How triggers and actions fare -/

/-- What a trigger gets: an error for the first thing that fails, or an exec block. -/
inductive Trigger.Fares (catalog : Catalog) (c : Context) (workflowId path : String) (t : Trigger) :
    List Diagnostic → Option TriggerExec → Prop where
  | unknown {e : Diagnostic}
      (absent : catalog.scan .trigger t.toolkitSlug t.triggerRef = none)
      (code : e.code = .unknownTrigger) (place : e.path = path) :
      Fares catalog c workflowId path t [e] none
  | undelivered {e : Diagnostic} {hit : CatalogHit} {delivery : String}
      (found : catalog.scan .trigger t.toolkitSlug t.triggerRef = some hit)
      (asked : t.delivery = some delivery) (refused : delivery ∉ hit.entry.supportedDelivery)
      (code : e.code = .unsupportedDelivery) (place : e.path = path ++ ".delivery") :
      Fares catalog c workflowId path t [e] none
  | unconnected {e : Diagnostic} {hit : CatalogHit}
      (found : catalog.scan .trigger t.toolkitSlug t.triggerRef = some hit)
      (delivers : ∀ delivery, t.delivery = some delivery → delivery ∈ hit.entry.supportedDelivery)
      (alone : ∀ x ∈ c.connections, x.2.provider ≠ hit.provider)
      (code : e.code = .missingConnection) (place : e.path = path) :
      Fares catalog c workflowId path t [e] none
  | resolved {hit : CatalogHit} {exec : TriggerExec}
      (found : catalog.scan .trigger t.toolkitSlug t.triggerRef = some hit)
      (delivers : ∀ delivery, t.delivery = some delivery → delivery ∈ hit.entry.supportedDelivery)
      (provider : exec.provider = hit.provider)
      (slug : exec.triggerSlug = if hit.entry.slug = "" then hit.entry.id else hit.entry.slug)
      (chosen : c.Chooses hit.provider t.connectionHint exec.connectionId)
      (subscribed : exec.instanceId.isSome = true
        ↔ workflowId ≠ "" ∧ ∃ user, c.userId? = some user ∧ user ≠ "") :
      Fares catalog c workflowId path t [] (some exec)

/-- What an action gets. One with an exec block may still have parameters without a value. -/
inductive Action.Fares (catalog : Catalog) (c : Context) (path : String) (a : Action) :
    List Diagnostic → Option ActionExec → Prop where
  | unknown {e : Diagnostic}
      (absent : catalog.scan .action a.toolkitSlug a.actionRef = none)
      (code : e.code = .unknownAction) (place : e.path = path) :
      Fares catalog c path a [e] none
  | unconnected {e : Diagnostic} {hit : CatalogHit}
      (found : catalog.scan .action a.toolkitSlug a.actionRef = some hit)
      (alone : ∀ x ∈ c.connections, x.2.provider ≠ hit.provider)
      (code : e.code = .missingConnection) (place : e.path = path) :
      Fares catalog c path a [e] none
  | resolved {errors : List Diagnostic} {hit : CatalogHit} {exec : ActionExec}
      (found : catalog.scan .action a.toolkitSlug a.actionRef = some hit)
      (params : ∀ e ∈ errors, e.code = .missingRequiredParam)
      (provider : exec.provider = hit.provider)
      (slug : exec.actionSlug = if hit.entry.slug = "" then hit.entry.id else hit.entry.slug)
      (chosen : c.Chooses hit.provider a.connectionHint exec.connectionId) :
      Fares catalog c path a errors (some exec)

/-! ### Reports of the resolvers -/

namespace Coercion

@[simp] theorem errors_coerceParam (v : Value) (spec : ParamSpec) (path : String) :
    (coerceParam v spec path).log.errors = [] := by
  unfold coerceParam
  split <;> simp

@[simp] theorem errors_coerceDeclared (v : Value) (spec? : Option ParamSpec) (path : String) :
    (coerceDeclared v spec? path).log.errors = [] := by
  unfold coerceDeclared
  split <;> simp

@[simp] theorem errors_coerceParams (params : Object) (spec : Table ParamSpec) (path : String) :
    (coerceParams params spec path).log.errors = [] :=
  Traced.errors_mapM_eq_nil fun _ => by simp

end Coercion

namespace Context

@[simp] theorem errors_triggerExec (c : Context) (workflowId : String) (version : Version)
    (path : String) (t : Trigger) (hit : CatalogHit) (id : String) :
    (c.triggerExec workflowId version path t hit id).log.errors = [] := by
  simp [triggerExec]

theorem code_of_mem_errors_splitRequired (inputs : Object) (path : String) (s : SplitInputs)
    (param : String × ParamSpec) :
    ∀ e ∈ (splitRequired inputs path s param).log.errors, e.code = .missingRequiredParam := by
  unfold splitRequired
  dsimp only
  split <;> simp

theorem errors_splitFurther (spec : Table ParamSpec) (path : String) (required : Object)
    (input : String × Value) : (splitFurther spec path required input).log.errors = [] := by
  simp only [splitFurther]
  split <;> simp

theorem code_of_mem_errors_splitInputs (a : Action) (spec : Table ParamSpec) (path : String) :
    ∀ e ∈ (splitInputs a spec path).log.errors, e.code = .missingRequiredParam := by
  have further (required : Object) :
      (a.requiredInputs.foldlM (splitFurther spec path) required).log.errors = [] :=
    Traced.errors_foldlM_eq_nil (errors_splitFurther spec path) ..
  intro e he
  simp only [splitInputs, Traced.log_bind, Diagnostics.errors_append, further,
    Coercion.errors_coerceParams, Traced.log_pure, Diagnostics.errors_empty, List.append_nil] at he
  exact Traced.forall_errors_foldlM (code_of_mem_errors_splitRequired _ _) _ _ e he

theorem code_of_mem_errors_actionExec (c : Context) (path : String) (a : Action) (hit : CatalogHit)
    (id : String) :
    ∀ e ∈ (c.actionExec path a hit id).log.errors, e.code = .missingRequiredParam := by
  intro e he
  simp only [actionExec, Traced.log_bind, Diagnostics.errors_append, Traced.log_pure,
    Diagnostics.errors_empty, List.append_nil] at he
  exact code_of_mem_errors_splitInputs _ _ _ e he

theorem errors_connectionFor (c : Context) (hit : CatalogHit) (hint : Option String)
    (path : String) :
    (c.connectionFor hit hint path).log.errors
      = if (c.connection? hit.provider hint).isNone then
          [⟨.missingConnection, path, "No connection found for provider '" ++ hit.provider ++ "'",
            some ("Connect a '" ++ hit.provider ++ "' account first")⟩]
        else [] := by
  simp only [connectionFor]
  split <;> simp

/-- A trigger without an exec block fares as it should. -/
theorem fares_resolveTrigger {c : Context} {catalog : Catalog} (index : c.index = .build catalog)
    (workflowId : String) (version : Version) (path : String) {t : Trigger} (bare : t.exec = none) :
    t.Fares catalog c workflowId path
        (c.resolveTrigger workflowId version path t).log.errors
        (c.resolveTrigger workflowId version path t).value.exec ∧
      (c.resolveTrigger workflowId version path t).value
        = { t with exec := (c.resolveTrigger workflowId version path t).value.exec } := by
  have kept : t = { t with exec := none } := by rw [← bare]
  have scanned := CatalogIndex.find?_build catalog .trigger t.toolkitSlug t.triggerRef
  rw [← index] at scanned
  unfold resolveTrigger
  cases found : c.index.find? .trigger t.toolkitSlug t.triggerRef with
  | none =>
    rw [found] at scanned
    simp only [Traced.log_bind, Traced.value_bind, Traced.value_pure, bare]
    exact ⟨.unknown scanned.symm rfl rfl, kept⟩
  | some hit =>
    rw [found] at scanned
    cases refused : refusedDelivery? t hit.entry with
    | some delivery =>
      obtain ⟨asked, unsupported⟩ := Option.filter_eq_some_iff.mp refused
      simp only [refused, Traced.log_bind, Traced.value_bind, Traced.value_pure, bare]
      refine ⟨.undelivered scanned.symm asked ?_ rfl rfl, kept⟩
      simpa [CatalogEntry.supportsDelivery] using unsupported
    | none =>
      have delivers := refusedDelivery?_eq_none.mp refused
      cases connected : c.connection? hit.provider t.connectionHint with
      | none =>
        simp only [refused, Traced.log_bind, Traced.value_bind, value_connectionFor, connected,
          Diagnostics.errors_append, errors_connectionFor, Traced.value_pure, bare]
        exact ⟨.unconnected scanned.symm delivers
          (not_connects.mp (connection?_eq_none.mp connected)) rfl rfl, kept⟩
      | some id =>
        simp only [refused, Traced.log_bind, Traced.value_bind, value_connectionFor, connected,
          Diagnostics.errors_append, errors_connectionFor, Traced.value_pure, errors_triggerExec]
        exact ⟨.resolved scanned.symm delivers (by simp [triggerExec])
          (by simp [triggerExec, CatalogEntry.displaySlug])
          (by simpa [triggerExec] using chooses_of_connection? connected)
          (by simpa [triggerExec] using instanceId?_isSome ..), trivial⟩

/-- The same for actions. -/
theorem fares_resolveAction {c : Context} {catalog : Catalog} (index : c.index = .build catalog)
    (path : String) {a : Action} (bare : a.exec = none) :
    a.Fares catalog c path (c.resolveAction path a).log.errors
        (c.resolveAction path a).value.exec ∧
      (c.resolveAction path a).value
        = { a with exec := (c.resolveAction path a).value.exec } := by
  have kept : a = { a with exec := none } := by rw [← bare]
  have scanned := CatalogIndex.find?_build catalog .action a.toolkitSlug a.actionRef
  rw [← index] at scanned
  unfold resolveAction
  cases found : c.index.find? .action a.toolkitSlug a.actionRef with
  | none =>
    rw [found] at scanned
    simp only [Traced.log_bind, Traced.value_bind, Traced.value_pure, bare]
    exact ⟨.unknown scanned.symm rfl rfl, kept⟩
  | some hit =>
    rw [found] at scanned
    cases connected : c.connection? hit.provider a.connectionHint with
    | none =>
      simp only [Traced.log_bind, Traced.value_bind, value_connectionFor, connected,
        Diagnostics.errors_append, errors_connectionFor, Traced.value_pure, bare]
      exact ⟨.unconnected scanned.symm (not_connects.mp (connection?_eq_none.mp connected)) rfl rfl,
        kept⟩
    | some id =>
      simp only [Traced.log_bind, Traced.value_bind, value_connectionFor, connected,
        Diagnostics.errors_append, errors_connectionFor, Traced.value_pure]
      refine ⟨.resolved scanned.symm ?_ (by simp [actionExec])
        (by simp [actionExec, CatalogEntry.displaySlug])
        (by simpa [actionExec] using chooses_of_connection? connected), trivial⟩
      simpa using code_of_mem_errors_actionExec c path a hit id

theorem errors_resolve (c : Context) (w : Workflow) :
    (c.resolve w).log.errors
      = (w.triggers.zipIdx.flatMap fun x =>
          (c.resolveTrigger w.id w.version (indexed "triggers" x.2) x.1).log.errors)
        ++ w.actions.zipIdx.flatMap fun x =>
          (c.resolveAction (indexed "actions" x.2) x.1).log.errors := by
  simp [resolve]

end Context

/-! ### The whole report -/

/-- The paths of the items of a list that lack an exec block. -/
def pathsWithout (list : String) (execs : List (Option α)) : List String :=
  (execs.zipIdx.filter (·.1.isNone)).map fun x => indexed list x.2

theorem Workflow.map_fst_missingExec (w : Workflow) :
    w.missingExec.map Prod.fst = pathsWithout "triggers" (w.triggers.map (·.exec))
      ++ pathsWithout "actions" (w.actions.map (·.exec)) := by
  simp [missingExec, pathsWithout, List.zipIdx_map, List.filter_map, Function.comp_def]

namespace Materializer

theorem value_validate (template : Value) :
    (validate template).value
      = (requiredFields.all (Path.isPresent template)
        && (entities template).all fun e => Path.isPresent e.2 "local_id") := by
  rw [validate, Traced.value_bind, Traced.value_foldlM, Path.value_requireFields, ← foldl_and]
  congr 1
  funext valid e
  simp [Path.value_requireFields]

/-- What is read as a workflow passes validation. -/
theorem validate_of_ofValue {template : Value} {w : Workflow}
    (read : Workflow.ofValue template = .ok w) : (validate template).value = true := by
  have named : ∀ e ∈ entities template, Path.isPresent e.2 "local_id" = true :=
    (forall_mem_iff_of_forall₂ (Q := fun _ => True) (Workflow.entities_of_ofValue read)
      fun e x agree => ⟨fun _ => trivial, fun _ => agree.2.1⟩).mpr fun _ _ => trivial
  rw [value_validate, Workflow.required_of_ofValue read, Bool.true_and, List.all_eq_true]
  exact named

theorem errors_validate (template : Value) :
    (validate template).log.errors
      = (Path.requireFields template requiredFields "").log.errors
        ++ (entities template).flatMap fun e =>
          (Path.requireFields e.2 ["local_id"] e.1).log.errors := by
  rw [validate, Traced.log_bind, Diagnostics.errors_append, Traced.errors_foldlM]
  intro valid e
  simp

/-- Validation reports an error just if it fails. -/
theorem errors_validate_eq_nil {template : Value} :
    (validate template).log.errors = [] ↔ (validate template).value = true := by
  rw [errors_validate, value_validate, List.append_eq_nil_iff, List.flatMap_eq_nil_iff,
    Path.errors_requireFields_eq_nil, Bool.and_eq_true, List.all_eq_true (l := entities template)]
  refine and_congr_right fun _ => forall₂_congr fun e _ => ?_
  rw [Path.errors_requireFields_eq_nil]
  simp

@[simp] theorem errors_prepare (template : Value) (answers : Object) :
    (prepare template answers).log.errors = [] := by
  simp [prepare, Traced.log_forM_hint]

/-- What an unmended document is judged to be. -/
theorem finish_none (scanner : SecretScanner) (w : Workflow) (log : Diagnostics) :
    (finish ⟨.none, scanner⟩ w log).diagnostics.errors = log.errors ++ missingExecErrors w ∧
      (finish ⟨.none, scanner⟩ w log).document
        = if missingExecErrors w = [] then some w else none := by
  simp only [finish, RepairStrategy.none]
  cases missingExecErrors w <;> simp [SecretScanner.scan]

theorem compile_of_read {template : Value} {c : Context} {w : Workflow} (m : Materializer)
    (valid : (validate template).value = true)
    (read : Workflow.ofValue (prepare template c.answers).value = .ok w) :
    m.compile template c = m.finish (c.resolve w).value
      ((validate template).log ++ (prepare template c.answers).log ++ (c.resolve w).log) := by
  simp [compile, valid, read]

/-- How all triggers and actions fare, and what the compilation makes of it: their errors in order, behind
    them one for each that lacks an exec block, and a document if there is none. -/
structure Accounts (catalog : Catalog) (c : Context) (w : Workflow)
    (triggers : List (List Diagnostic × Option TriggerExec))
    (actions : List (List Diagnostic × Option ActionExec)) (missing : List Diagnostic)
    (outcome : Outcome Workflow) : Prop where
  eachTrigger : List.Forall₂ (fun x y => x.1.Fares catalog c w.id (indexed "triggers" x.2) y.1 y.2)
    w.triggers.zipIdx triggers
  eachAction : List.Forall₂ (fun x y => x.1.Fares catalog c (indexed "actions" x.2) y.1 y.2)
    w.actions.zipIdx actions
  errors : outcome.diagnostics.errors
    = triggers.flatMap Prod.fst ++ actions.flatMap Prod.fst ++ missing
  code : ∀ e ∈ missing, e.code = .missingExecBlock
  paths : missing.map (·.path) = pathsWithout "triggers" (triggers.map Prod.snd)
    ++ pathsWithout "actions" (actions.map Prod.snd)
  document : outcome.document = if missing = [] then some (c.injectDefaults { w with
      triggers := w.triggers.zipWith (fun t y => { t with exec := y.2 }) triggers
      actions := w.actions.zipWith (fun a y => { a with exec := y.2 }) actions })
    else none

/-- Items and what becomes of them, side by side. -/
theorem zipWith_map_zipIdx (f : α → β → γ) (g : α × Nat → β) (xs : List α) :
    xs.zipWith f (xs.zipIdx.map g) = xs.zipIdx.map fun x => f x.1 (g x) := by
  conv_lhs => arg 2; rw [← List.zipIdx_map_fst 0 xs]
  rw [List.zipWith_map, List.zipWith_self]

/-- A compilation without mending accounts for each trigger and action of a template that passes
    validation, reads as a workflow and comes without exec blocks. -/
theorem compile_accounts_for_all (scanner : SecretScanner) (catalog : Catalog) (c : Context)
    (template : Value) (w : Workflow) (index : c.index = .build catalog)
    (valid : (validate template).value = true)
    (read : Workflow.ofValue (prepare template c.answers).value = .ok w)
    (bareTriggers : ∀ t ∈ w.triggers, t.exec = none)
    (bareActions : ∀ a ∈ w.actions, a.exec = none) :
    ∃ triggers actions missing,
      Accounts catalog c w triggers actions missing (compile ⟨.none, scanner⟩ template c) := by
  let trigger (x : Trigger × Nat) := c.resolveTrigger w.id w.version (indexed "triggers" x.2) x.1
  let action (x : Action × Nat) := c.resolveAction (indexed "actions" x.2) x.1
  have eachTrigger {x : Trigger × Nat} (hx : x ∈ w.triggers.zipIdx) :=
    Context.fares_resolveTrigger index w.id w.version (indexed "triggers" x.2)
      (bareTriggers x.1 (List.fst_mem_of_mem_zipIdx hx))
  have eachAction {x : Action × Nat} (hx : x ∈ w.actions.zipIdx) :=
    Context.fares_resolveAction index (indexed "actions" x.2)
      (bareActions x.1 (List.fst_mem_of_mem_zipIdx hx))
  obtain ⟨errors, document⟩ := finish_none scanner (c.resolve w).value
    ((validate template).log ++ (prepare template c.answers).log ++ (c.resolve w).log)
  rw [← compile_of_read ⟨.none, scanner⟩ valid read] at errors document
  refine ⟨w.triggers.zipIdx.map fun x => ((trigger x).log.errors, (trigger x).value.exec),
    w.actions.zipIdx.map fun x => ((action x).log.errors, (action x).value.exec),
    missingExecErrors (c.resolve w).value, ?_, ?_, ?_, ?_, ?_, ?_⟩
  · rw [List.forall₂_map_right_iff, List.forall₂_same]
    exact fun x hx => (eachTrigger hx).1
  · rw [List.forall₂_map_right_iff, List.forall₂_same]
    exact fun x hx => (eachAction hx).1
  · rw [errors, List.flatMap_map, List.flatMap_map]
    simp [errors_validate_eq_nil.mpr valid, Context.errors_resolve, trigger, action]
  · intro e he
    obtain ⟨x, -, rfl⟩ := List.mem_map.mp he
    rfl
  · have paths := Workflow.map_fst_missingExec (c.resolve w).value
    simp only [Context.value_resolve, Context.triggers_injectDefaults,
      Context.actions_injectDefaults, List.map_map, Function.comp_def] at paths
    simpa [missingExecErrors, Function.comp_def, Context.value_resolve] using paths
  · have triggers : w.triggers.zipIdx.map (fun x => (trigger x).value)
        = w.triggers.zipIdx.map fun x => { x.1 with exec := (trigger x).value.exec } :=
      List.map_congr_left fun x hx => (eachTrigger hx).2
    have actions : w.actions.zipIdx.map (fun x => (action x).value)
        = w.actions.zipIdx.map fun x => { x.1 with exec := (action x).value.exec } :=
      List.map_congr_left fun x hx => (eachAction hx).2
    rw [document, zipWith_map_zipIdx, zipWith_map_zipIdx, ← triggers, ← actions,
      ← Context.value_resolve]

/-- A catalog with a trigger and an action of one provider and an action of another. -/
def officeCatalog : Catalog :=
  ⟨[("acme", ⟨[("mail", ⟨none,
      [⟨"m1", "new_mail", none, none, [], .none, ["webhook"]⟩],
      [⟨"m2", "", none, none, [("to", ⟨.string, true, none, none⟩)], .none, []⟩]⟩)]⟩),
    ("globex", ⟨[("files", ⟨none, [], [⟨"f1", "upload", none, none, [], .none, []⟩]⟩)]⟩)]⟩

/-- A user with two connections to the first provider and none to the second. -/
def officeContext : Context where
  index := .build officeCatalog
  user := some ⟨some "u", none⟩
  connections := [("conn1", ⟨"acme", []⟩), ("conn2", ⟨"acme", []⟩)]
  answers := []
  defaults := .none

/-- Three triggers, of which the last can be resolved, and two actions, of which the second can. -/
def officeTemplate : Value :=
  let entity (id toolkit refField ref : String) (more : Object) : Value :=
    .obj ([("local_id", .str id), ("toolkit_slug", .str toolkit), (refField, .str ref)] ++ more)
  .obj [("workflow_id", .str "w"), ("version", .int 1),
    ("triggers", .arr [entity "t1" "files" "trigger_ref" "new_mail" [],
      entity "t2" "mail" "trigger_ref" "new_mail" [("delivery", .str "poll")],
      entity "t3" "mail" "trigger_ref" "m1" [("connection_hint", .str "conn2")]]),
    ("actions", .arr [entity "a1" "files" "action_ref" "upload" [],
      entity "a2" "mail" "action_ref" "m2" []])]

theorem compile_accounts_for_all_office :
    (∃ w triggers actions missing, Accounts officeCatalog officeContext w triggers actions missing
      (standard.compile officeTemplate officeContext)) ∧
    (standard.compile officeTemplate officeContext).diagnostics.errors.map
        (fun e => (e.code, e.path))
      = [(.unknownTrigger, "triggers[0]"), (.unsupportedDelivery, "triggers[1].delivery"),
        (.missingConnection, "actions[0]"),
        (.missingRequiredParam, "actions[1].required_inputs.to"),
        (.missingExecBlock, "triggers[0]"), (.missingExecBlock, "triggers[1]"),
        (.missingExecBlock, "actions[0]")] := by
  refine ⟨?_, by decide +kernel⟩
  have bare : (Workflow.ofValue (prepare officeTemplate officeContext.answers).value).toOption.map
      (fun w => (w.triggers.all (·.exec.isNone), w.actions.all (·.exec.isNone)))
        = some (true, true) := by
    decide +kernel
  obtain ⟨w, made, same⟩ := Option.map_eq_some_iff.mp bare
  obtain ⟨triggers, actions⟩ : (∀ t ∈ w.triggers, t.exec = none) ∧ ∀ a ∈ w.actions, a.exec = none := by
    simpa using same
  exact ⟨w, compile_accounts_for_all .standard officeCatalog officeContext officeTemplate w rfl
    (by decide +kernel) (eq_ok_of_toOption made) triggers actions⟩

end Materializer

end Flowgraph
