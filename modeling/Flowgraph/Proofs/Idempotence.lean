import Flowgraph.Proofs.Placeholder
import Flowgraph.Proofs.Resolution
import Flowgraph.Proofs.Workflow.NormalForm
import Flowgraph.Proofs.Workflow.PolicyNumbers

/-! Compiling an executable again. Each stage leaves alone what the stages made before: no answers are left to
    fill in, the numbers are straight, the triggers and actions are resolved as they were, and the default
    policies are there. -/

namespace Flowgraph

open Json

/-! ### Resolving again -/

namespace Context

variable (c : Context)

/-- Whatever exec block a trigger comes with, it gets the same one; if none, it keeps its own. -/
theorem value_resolveTrigger (workflowId : String) (version : Version) (path : String)
    (t : Trigger) :
    (c.resolveTrigger workflowId version path t).value = { t with
      exec := (c.resolveTrigger workflowId version path { t with exec := none }).value.exec
        <|> t.exec } := by
  unfold resolveTrigger
  cases c.index.find? .trigger t.toolkitSlug t.triggerRef with
  | none => rfl
  | some hit =>
    have same : refusedDelivery? { t with exec := none } hit.entry = refusedDelivery? t hit.entry :=
      rfl
    simp only [same]
    cases refusedDelivery? t hit.entry with
    | some delivery => rfl
    | none =>
      simp only [Traced.value_bind, value_connectionFor]
      cases c.connection? hit.provider t.connectionHint with
      | none => rfl
      | some id => rfl

/-- The same for actions. -/
theorem value_resolveAction (path : String) (a : Action) :
    (c.resolveAction path a).value = { a with
      exec := (c.resolveAction path { a with exec := none }).value.exec <|> a.exec } := by
  unfold resolveAction
  cases c.index.find? .action a.toolkitSlug a.actionRef with
  | none => rfl
  | some hit =>
    simp only [Traced.value_bind, value_connectionFor]
    cases c.connection? hit.provider a.connectionHint with
    | none => rfl
    | some id => rfl

/-- A trigger that was resolved and read back is resolved as before. -/
theorem resolveTrigger_again (workflowId : String) (version : Version) (path : String)
    {t : Trigger} (h : t.canonical = t) :
    (c.resolveTrigger workflowId version path
        (c.resolveTrigger workflowId version path t).value.canonical).value
      = (c.resolveTrigger workflowId version path t).value := by
  have own : t.exec.map TriggerExec.canonical = t.exec := congrArg Trigger.exec h
  have readBack (exec : Option TriggerExec) : Trigger.canonical { t with exec := exec }
      = { t with exec := exec.map TriggerExec.canonical } := by
    change { t.canonical with exec := exec.map TriggerExec.canonical } = _
    rw [h]
  rw [c.value_resolveTrigger workflowId version path t, readBack, value_resolveTrigger]
  cases (c.resolveTrigger workflowId version path { t with exec := none }).value.exec with
  | none => simpa using own
  | some exec => rfl

/-- The same for actions. -/
theorem resolveAction_again (path : String) {a : Action} (h : a.canonical = a) :
    (c.resolveAction path (c.resolveAction path a).value.canonical).value
      = (c.resolveAction path a).value := by
  have own : a.exec.map ActionExec.canonical = a.exec := congrArg Action.exec h
  have readBack (exec : Option ActionExec) : Action.canonical { a with exec := exec }
      = { a with exec := exec.map ActionExec.canonical } := by
    change { a.canonical with exec := exec.map ActionExec.canonical } = _
    rw [h]
  rw [c.value_resolveAction path a, readBack, value_resolveAction]
  cases (c.resolveAction path { a with exec := none }).value.exec with
  | none => simpa using own
  | some exec => rfl

/-- Policies that are filled already stay. -/
theorem fillFrom_fillFrom (p next : Policies) : (p.fillFrom next).fillFrom next = p.fillFrom next := by
  simp [Policies.fillFrom, Option.or_assoc]

/-- Default policies change nothing else. -/
theorem injectDefaults_eq (w : Workflow) :
    ∃ policies, c.injectDefaults w = { w with policies := policies } := by
  rw [injectDefaults]
  split
  · exact ⟨w.policies, rfl⟩
  · exact ⟨_, rfl⟩

theorem injectDefaults_injectDefaults (w : Workflow) :
    c.injectDefaults (c.injectDefaults w) = c.injectDefaults w := by
  by_cases none_set : c.defaults = .none
  · simp [injectDefaults, none_set]
  · simp [injectDefaults, none_set, fillFrom_fillFrom]

end Context

/-- What becomes of the items of a list, numbered again. -/
theorem zipIdx_map_zipIdx (f : α × Nat → β) (xs : List α) :
    (xs.zipIdx.map f).zipIdx = xs.zipIdx.map fun x => (f x, x.2) := by
  apply List.ext_getElem
  · simp
  · intro i _ _
    simp

namespace Context

variable (c : Context)

/-- Resolving leaves a workflow that was resolved and read back as it was before. -/
theorem resolve_again {w : Workflow} (h : w.canonical = w) :
    (c.resolve (c.resolve w).value.canonical).value = (c.resolve w).value := by
  have triggers : ∀ t ∈ w.triggers, t.canonical = t := List.map_inj_left.mp <|
    (congrArg Workflow.triggers h).trans (List.map_id' _).symm
  have actions : ∀ a ∈ w.actions, a.canonical = a := List.map_inj_left.mp <|
    (congrArg Workflow.actions h).trans (List.map_id' _).symm
  have flow : w.flowControl.map FlowControl.canonical = w.flowControl :=
    congrArg Workflow.flowControl h
  have extra : w.extra.canonical = w.extra := congrArg Workflow.extra h
  obtain ⟨policies, filled⟩ := c.injectDefaults_eq { w with
    triggers := w.triggers.zipIdx.map fun x =>
      (c.resolveTrigger w.id w.version (indexed "triggers" x.2) x.1).value
    actions := w.actions.zipIdx.map fun x =>
      (c.resolveAction (indexed "actions" x.2) x.1).value }
  rw [c.value_resolve w]
  conv_rhs => rw [← injectDefaults_injectDefaults]
  rw [filled, value_resolve]
  congr 1
  simp only [Workflow.canonical, flow, extra, List.map_map, zipIdx_map_zipIdx, Function.comp_def]
  congr 1
  · exact List.map_congr_left fun x hx => c.resolveTrigger_again _ _ _
      (triggers x.1 (List.fst_mem_of_mem_zipIdx hx))
  · exact List.map_congr_left fun x hx => c.resolveAction_again _
      (actions x.1 (List.fst_mem_of_mem_zipIdx hx))

end Context

/-! ### Compiling again -/

namespace Materializer

/-- An executable is a template without anything left to prepare. -/
theorem prepare_toValue {d : Workflow} (tidy : d.Tidy) (finite : d.isFinite = true)
    (actions : ∀ a ∈ d.actions, a.FitsInt64) (policies : ∀ p, d.policies = some p → p.FitsInt64) :
    (prepare d.toValue []).value = d.toValue := by
  have settled := d.settled_toValue tidy finite actions policies
  have canonical : d.toValue.canonical = d.toValue := Value.canonical_canonical _
  simp [prepare, Placeholder.apply_nil, PolicyNumbers.coerce_of_settled canonical settled]

/-- The actions of an executable have times of at most 63 bits. -/
theorem fits_of_resolve {template : Value} {c : Context} {w : Workflow}
    (read : Workflow.ofValue (prepare template c.answers).value = .ok w) :
    ∀ a ∈ (c.resolve w).value.actions, a.FitsInt64 := by
  have settled : PolicyNumbers.Settled (prepare template c.answers).value := by
    simpa [prepare] using PolicyNumbers.settled_coerce _
  rw [Context.value_resolve, Context.actions_injectDefaults]
  refine List.forall_mem_map.mpr fun x hx => ?_
  have fits := Workflow.fits_of_ofValue settled read x.1 (List.fst_mem_of_mem_zipIdx hx)
  rw [Context.value_resolveAction]
  exact ⟨fits.timeoutMs, fits.retry⟩

/-- An executable with finite doubles, and with workflow policies of at most 63 bits, is compiled to itself. -/
theorem compile_toValue_of_compile (scanner scanner' : SecretScanner) (template : Value)
    (c : Context) (d : Workflow)
    (compiled : (compile ⟨.none, scanner⟩ template c).document = some d)
    (finite : d.isFinite = true) (fits : ∀ p, d.policies = some p → p.FitsInt64) :
    (compile ⟨.none, scanner'⟩ d.toValue { c with answers := [] }).document = some d := by
  obtain ⟨tidy, runnable⟩ := tidy_of_compile RepairStrategy.none_keepsTidy compiled
  obtain ⟨w, log, read, mended, -⟩ := exists_of_compile_eq_some compiled
  have resolved : (c.resolve w).value = d := mended.symm
  have prepared := prepare_toValue tidy finite (resolved ▸ fits_of_resolve read) fits
  have accepted := Lowerer.accepts_toValue tidy runnable finite
  have again : (Context.resolve { c with answers := [] } d.canonical).value = d := by
    rw [← resolved]
    exact c.resolve_again (Workflow.canonical_of_ofValue read)
  rw [compile_of_read _ (validate_of_ofValue accepted.read) (prepared ▸ accepted.read),
    (finish_none ..).2, again, if_pos]
  exact List.map_eq_nil_iff.mpr (Workflow.missingExec_eq_nil.mpr runnable)

/-- A template with an answer to fill in, numbers as text, part of a retry policy, a loop, and a trigger that
    is in no catalog and brings its own exec block. -/
def draftTemplate : Value :=
  .obj [("workflow_id", .str "w"), ("version", .str "1"), ("note", .str "\x7b\x7bsubject\x7d\x7d"),
    ("triggers", .arr [
      .obj [("local_id", .str "t"), ("toolkit_slug", .str "mail"), ("trigger_ref", .str "new_mail")],
      .obj [("local_id", .str "own"), ("exec", .obj [("provider", .str "other"),
        ("trigger_slug", .str "x"), ("configuration", .obj []), ("connection_id", .str "y")])]]),
    ("actions", .arr [.obj [("local_id", .str "a"), ("toolkit_slug", .str "mail"),
      ("action_ref", .str "m2"), ("required_inputs", .obj [("to", .str "\x7b\x7bwho\x7d\x7d")]),
      ("timeout_ms", .str "5"), ("retry", .obj [("max_attempts", .str "4")])]]),
    ("policies", .obj [("timeout_ms", .str "9")]),
    ("flow_control", .obj [("loops", .arr [.obj [("kind", .str "while"),
      ("max_iterations", .str "3")]])])]

/-- The user's answer looks like a placeholder itself, and there is a default rate limit. -/
def draftContext : Context :=
  { officeContext with
    answers := [("who", .str "\x7b\x7bsubject\x7d\x7d")]
    defaults := { Policies.none with rateLimit := some ⟨7⟩ } }

theorem compile_toValue_of_compile_draft :
    ∃ d, (standard.compile draftTemplate draftContext).document = some d ∧
      d.isFinite = true ∧ d.policies = some ⟨none, some 9, some ⟨7⟩, none⟩ ∧
      (standard.compile d.toValue { draftContext with answers := [] }).document = some d := by
  have made : (standard.compile draftTemplate draftContext).document.map
      (fun d => (d.isFinite, d.policies)) = some (true, some ⟨none, some 9, some ⟨7⟩, none⟩) := by
    decide +kernel
  obtain ⟨d, compiled, same⟩ := Option.map_eq_some_iff.mp made
  obtain ⟨finite, policies⟩ := Prod.mk.inj same
  have fits : ∀ p, d.policies = some p → p.FitsInt64 := by
    rw [policies]
    rintro p ⟨⟩
    refine ⟨fun t ht => ?_, by simp⟩
    cases ht
    decide
  exact ⟨d, compiled, finite, policies,
    compile_toValue_of_compile .standard .standard draftTemplate draftContext d compiled finite fits⟩

end Materializer

end Flowgraph
