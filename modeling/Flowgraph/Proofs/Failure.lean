import Flowgraph.Proofs.HandOver

/-! When lowering fails. A graph is withheld just if an error is reported, at whichever stage that is: the
    validation of the document, its conversion, the routes, the conversion of the defaults for the UI, or
    the check of the graph. An executable can fail at its routes alone, and then each end of a route that
    leads nowhere is reported. -/

namespace Flowgraph

open Json

/-- A route is in error just if one of its ends stands for nothing. -/
theorem Workflow.routeErrors_ne_nil {w : Workflow} {rho : Resolver} :
    w.routeErrors rho ≠ [] ↔ ∃ r ∈ w.flow.routes, rho r.fromRef = none ∨ rho r.toRef = none := by
  have each (r : Route) :
      ¬(r.link? rho).isSome = true ↔ rho r.fromRef = none ∨ rho r.toRef = none := by
    rw [Route.link?]
    cases rho r.fromRef <;> cases rho r.toRef <;> simp
  rw [ne_eq, routeErrors_eq_nil, List.all_eq_true]
  push Not
  exact exists_congr fun r => and_congr_right fun _ => each r

namespace Lowerer

/-- There is no graph of a workflow just if one of its routes is in error. -/
theorem value_graph_eq_none_iff {l : Lowerer} {w : Workflow} :
    (l.graph w).value = none ↔ (l.graph w).log.errors ≠ [] := by
  rw [value_graph, errors_graph, ne_eq, Workflow.routeErrors_eq_nil]
  split <;> simp_all

/-- What could not be converted is reported. -/
theorem errors_malformed_ne_nil (log : Diagnostics) (what : String) (cause : DecodeError) :
    (malformed log what cause : Outcome Dag).diagnostics.errors ≠ [] := by
  simp [malformed]

/-- The graph is withheld just if an error is reported. -/
theorem document_eq_none_iff (l : Lowerer) (executable : Value) :
    (l.compile executable).document = none
      ↔ (l.compile executable).diagnostics.errors ≠ [] := by
  cases valid : (validate executable).value with
  | false =>
    have reported : (validate executable).log.errors ≠ [] := fun clean => by
      simp [errors_validate_eq_nil.mp clean] at valid
    simp [compile, valid, reported]
  | true =>
    cases read : Workflow.ofValue executable with
    | error cause =>
      simp only [compile, valid, read]
      exact iff_of_true rfl (errors_malformed_ne_nil _ _ _)
    | ok w =>
      have accepted : Accepts executable w := ⟨valid, read⟩
      cases shown : l.uiHints with
      | ok ui =>
        rw [accepted.errors_compile shown, ← Option.not_isSome_iff_eq_none,
          accepted.isSome_compile_iff shown]
      | error cause =>
        -- The routes come before the defaults, so the latter are reported only if there is a graph.
        rw [accepted.compile_eq]
        cases built : (l.graph w).value with
        | none => simp [lower, built, value_graph_eq_none_iff.mp built]
        | some parts =>
          simp only [lower, built, shown]
          exact iff_of_true rfl (errors_malformed_ne_nil _ _ _)

/-- A document that reads as a workflow is accepted if its triggers and actions all have exec blocks. -/
theorem Accepts.of_hasExec {executable : Value} {w : Workflow}
    (read : Workflow.ofValue executable = .ok w)
    (equipped : ∀ e ∈ entities executable, hasExec e.2 = true) : Accepts executable w := by
  refine accepts_iff.mpr ⟨read, Workflow.runnable_iff.mpr ?_⟩
  refine (forall_mem_iff_of_forall₂ (Workflow.entities_of_ofValue read) fun e x agree => ?_).mp equipped
  rw [agree.2.2]

/-- A graph is withheld just if an error is reported. Of an executable it is withheld just if an end of a
    route stands for no node, and the errors are those ends, route by route. -/
theorem compile_fails_iff_errors (l : Lowerer) (executable : Value) :
    ((l.compile executable).document = none
      ↔ (l.compile executable).diagnostics.errors ≠ []) ∧
    ∀ w ui, Workflow.ofValue executable = .ok w →
      (∀ e ∈ entities executable, hasExec e.2 = true) → l.uiHints = .ok ui →
      ((l.compile executable).document = none
        ↔ ∃ r ∈ w.flow.routes, w.denoted? r.fromRef = none ∨ w.denoted? r.toRef = none) ∧
      (l.compile executable).diagnostics.errors = w.routeErrors w.denoted? := by
  refine ⟨l.document_eq_none_iff executable, fun w ui read equipped shown => ?_⟩
  have errors := (Accepts.of_hasExec read equipped).errors_compile shown
  exact ⟨by rw [document_eq_none_iff, errors, Workflow.routeErrors_ne_nil], errors⟩

/-- An executable with four routes. The first leads somewhere, the others miss their source, both of their
    ends, and their target. -/
def strayRoutes : Value :=
  let route (source target : String) : Value := .obj [("from_ref", .str source), ("to_ref", .str target)]
  .obj [
    ("workflow_id", .str "w"), ("version", .int 1),
    ("triggers", .arr [.obj [("local_id", .str "start"), ("exec", .obj [("provider", .str "p"),
      ("trigger_slug", .str "s"), ("configuration", .obj []), ("connection_id", .str "c")])]]),
    ("actions", .arr [.obj [("local_id", .str "a"), ("exec", .obj [("provider", .str "p"),
      ("action_slug", .str "s"), ("connection_id", .str "c"), ("required_inputs", .obj []),
      ("optional_inputs", .obj []), ("retry", .obj []), ("timeout_ms", .int 9),
      ("rate_limit", .obj [])])]]),
    ("flow_control", .obj [("routes", .arr [route "start" "a", route "lost" "a",
      route "lost" "gone", route "start" "gone"])])]

theorem compile_fails_iff_errors_stray :
    (standard.compile strayRoutes).document = none ∧
      (standard.compile strayRoutes).diagnostics.errors.map (fun e => (e.code, e.path))
        = [(.missingSourceRef, "flow_control.routes[1].from_ref"),
          (.missingSourceRef, "flow_control.routes[2].from_ref"),
          (.missingTargetRef, "flow_control.routes[2].to_ref"),
          (.missingTargetRef, "flow_control.routes[3].to_ref")] := by
  have there : (Workflow.ofValue strayRoutes).toOption.map
        (fun w => (w.routeErrors w.denoted?).map fun e => (e.code, e.path))
      = some [(.missingSourceRef, "flow_control.routes[1].from_ref"),
        (.missingSourceRef, "flow_control.routes[2].from_ref"),
        (.missingTargetRef, "flow_control.routes[2].to_ref"),
        (.missingTargetRef, "flow_control.routes[3].to_ref")] := by
    decide +kernel
  obtain ⟨w, made, stray⟩ := Option.map_eq_some_iff.mp there
  obtain ⟨withheld, routes⟩ := compile_fails_iff_errors standard strayRoutes
  obtain ⟨-, errors⟩ := routes w _ (eq_ok_of_toOption made) (by decide +kernel)
    (uiHints_of_plain rfl)
  rw [withheld, errors, stray]
  exact ⟨fun clean => by simp [clean] at stray, rfl⟩

end Lowerer

end Flowgraph
