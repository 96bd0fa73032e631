import Flowgraph.Proofs.Grounding
import Flowgraph.Proofs.Integrity
import Flowgraph.Proofs.Workflow.Tidy

/-! The hand-over from the first stage to the second. The executable is written as a value and read again, and
    what is read is as good as what was written. It is lost just if a double in it is not finite, since such
    a double is written as `null`. -/

namespace Flowgraph

open Json

/-! ### What the canonical form refers to -/

theorem LoopBlock.localId_canonical (l : LoopBlock) : l.canonical.localId = l.localId := by
  cases l <;> rfl

namespace Workflow

theorem Runnable.canonical {w : Workflow} (h : w.Runnable) : w.canonical.Runnable := by
  refine ⟨List.forall_mem_map.mpr fun t ht => ?_, List.forall_mem_map.mpr fun a ha => ?_⟩
  · simpa [Trigger.canonical] using h.triggers t ht
  · simpa [Action.canonical] using h.actions a ha

theorem flow_canonical (w : Workflow) : w.canonical.flow = w.flow.canonical := by
  rw [flow, flow, canonical]
  cases w.flowControl <;> rfl

/-- The canonical form declares the same references. -/
theorem declared_canonical (w : Workflow) (kind : RefKind) :
    w.canonical.declared kind = w.declared kind := by
  cases kind with
  | trigger => simp [declared, canonical, Trigger.canonical]
  | action => simp [declared, canonical, Action.canonical]
  | gateway => simp [declared, flow_canonical, FlowControl.canonical, Conditional.canonical]
  | parallel => simp [declared, flow_canonical, FlowControl.canonical]
  | join => simp [declared, flow_canonical, FlowControl.canonical]
  | loop => simp [declared, flow_canonical, FlowControl.canonical, LoopBlock.localId_canonical]

theorem denoted?_canonical (w : Workflow) : w.canonical.denoted? = w.denoted? := by
  funext ref
  simp only [denoted?, declared_canonical]

theorem routeErrors_canonical (w : Workflow) (rho : Resolver) :
    w.canonical.routeErrors rho = w.routeErrors rho := by
  rw [routeErrors, routeErrors, flow_canonical, FlowControl.canonical, List.zipIdx_map,
    List.flatMap_map]
  rfl

/-- A tidy workflow is read again just if its doubles are finite. -/
theorem ofValue_toValue {w : Workflow} (tidy : w.Tidy) {x : Workflow} :
    Workflow.ofValue w.toValue = .ok x ↔ w.isFinite = true ∧ w.canonical = x :=
  Workflow.rereads tidy ⟨.value, 0⟩ x nofun

end Workflow

/-! ### Lowering what was written -/

namespace Lowerer

variable {l : Lowerer} {w : Workflow}

/-- Where no default is set, the layout and the initial viewport are read back. -/
theorem uiHints_of_plain (plain : l.uiDefaults = []) : l.uiHints = .ok ⟨l.layout, .initial, []⟩ := by
  have read (kind : LayoutKind) :
      Decoder.ofValue UiHints.codec.decode (UiHints.codec.toValue ⟨kind, .initial, []⟩)
        = .ok ⟨kind, .initial, []⟩ := by
    cases kind <;> decide +kernel
  rw [uiHints, plain]
  exact read l.layout

section
variable (plain : l.uiDefaults = []) (tidy : w.Tidy) (runnable : w.Runnable)
  (finite : w.isFinite = true)
include tidy runnable finite

/-- Written with finite doubles, an executable is accepted again. -/
theorem accepts_toValue : Accepts w.toValue w.canonical :=
  accepts_iff.mpr ⟨(Workflow.ofValue_toValue tidy).mpr ⟨finite, rfl⟩, runnable.canonical⟩

include plain

theorem errors_compileDocument :
    (l.compileDocument w).diagnostics.errors = w.routeErrors w.denoted? := by
  have accepted := accepts_toValue tidy runnable finite
  rw [compileDocument, accepted.errors_compile (uiHints_of_plain plain),
    Workflow.denoted?_canonical, Workflow.routeErrors_canonical]

theorem isSome_compileDocument_iff :
    (l.compileDocument w).document.isSome ↔ w.routeErrors w.denoted? = [] := by
  have accepted := accepts_toValue tidy runnable finite
  rw [compileDocument, accepted.isSome_compile_iff (uiHints_of_plain plain),
    Workflow.denoted?_canonical, Workflow.routeErrors_canonical]

end

/-- Written with a double that is not finite, an executable is turned down. -/
theorem compileDocument_of_not_finite (tidy : w.Tidy) (infinite : w.isFinite = false) :
    (l.compileDocument w).document = none ∧ ∃ e ∈ (l.compileDocument w).diagnostics.errors,
      e.code = .internalError ∨ e.code = .missingRequiredField ∨ e.code = .missingExecBlock := by
  rw [compileDocument, compile]
  cases valid : (validate w.toValue).value with
  | false =>
    have reported : (validate w.toValue).log.errors ≠ [] := fun none_there => by
      simp [errors_validate_eq_nil.mp none_there] at valid
    obtain ⟨e, he⟩ := List.exists_mem_of_ne_nil _ reported
    exact ⟨rfl, e, he, .inr (code_of_mem_errors_validate e he)⟩
  | true =>
    cases read : Workflow.ofValue w.toValue with
    | ok x =>
      have finite := ((Workflow.ofValue_toValue tidy).mp read).1
      simp [infinite] at finite
    | error cause =>
      exact ⟨rfl, _, List.mem_append_right _ (List.mem_singleton_self _), .inl rfl⟩

end Lowerer

/-! ### Both stages -/

namespace Pipeline

/-- The user's id is all that is added between the stages. -/
theorem withUser_eq (w : Workflow) (userId : Option String) :
    ∃ extra, withUser w userId = { w with extra := extra } := by
  cases userId with
  | none => exact ⟨w.extra, rfl⟩
  | some id =>
    rw [withUser]
    split
    · exact ⟨w.extra, rfl⟩
    · exact ⟨_, rfl⟩

section
variable (w : Workflow) (userId : Option String)

theorem runnable_withUser {w : Workflow} (h : w.Runnable) : (withUser w userId).Runnable := by
  obtain ⟨extra, same⟩ := withUser_eq w userId
  rw [same]
  exact ⟨h.triggers, h.actions⟩

theorem isFinite_withUser : (withUser w userId).isFinite = w.isFinite := by
  obtain ⟨extra, same⟩ := withUser_eq w userId
  rw [same, Workflow.isFinite, Workflow.isFinite]

theorem declared_withUser (kind : RefKind) :
    (withUser w userId).declared kind = w.declared kind := by
  obtain ⟨extra, same⟩ := withUser_eq w userId
  rw [same]
  cases kind <;> rfl

theorem denoted?_withUser : (withUser w userId).denoted? = w.denoted? := by
  funext ref
  simp only [Workflow.denoted?, declared_withUser]

theorem routeErrors_withUser (rho : Resolver) :
    (withUser w userId).routeErrors rho = w.routeErrors rho := by
  obtain ⟨extra, same⟩ := withUser_eq w userId
  rw [same, Workflow.routeErrors, Workflow.routeErrors, Workflow.flow, Workflow.flow]

end

/-- What a run with an executable is made of. -/
theorem run_of_executable {p : Pipeline} {template : Value} {c : Context} {w : Workflow}
    (h : (p.run template c).executable = some w) :
    (p.materializer.compile template c).document = some w ∧
      (p.run template c).dag = (p.lowerer.compileDocument (withUser w c.userId?)).document ∧
      (p.run template c).diagnostics.errors
        = (p.materializer.compile template c).diagnostics.errors
          ++ (p.lowerer.compileDocument (withUser w c.userId?)).diagnostics.errors := by
  rw [run] at h ⊢
  cases handed : (p.materializer.compile template c).document with
  | none => simp [handed] at h
  | some executable =>
    simp only [handed, Option.some.injEq] at h
    subst h
    exact ⟨rfl, rfl, rfl⟩

/-- Whatever executable the first stage hands out, the second has nothing to say against it but that routes
    lead nowhere, just if every double in it is finite. Where it says nothing, there is a graph. -/
theorem run_adds_only_routeErrors_iff (p : Pipeline) (template : Value) (c : Context) (w : Workflow)
    (plain : p.lowerer.uiDefaults = []) (keeps : p.materializer.repair.KeepsTidy)
    (h : (p.run template c).executable = some w) :
    ∃ added, (p.run template c).diagnostics.errors
        = (p.materializer.compile template c).diagnostics.errors ++ added ∧
      ((∀ e ∈ added, e.code = .missingSourceRef ∨ e.code = .missingTargetRef)
        ↔ w.isFinite = true) ∧
      (w.isFinite = true → added = w.routeErrors w.denoted?) ∧
      ((p.run template c).dag.isSome ↔ added = []) := by
  obtain ⟨handed, dag, errors⟩ := run_of_executable h
  obtain ⟨tidy, runnable⟩ := Materializer.tidy_of_compile keeps handed
  have tidyUser := tidy.withUser c.userId?
  have runnableUser := runnable_withUser c.userId? runnable
  refine ⟨_, errors, ?_⟩
  rw [dag]
  cases finite : w.isFinite with
  | true =>
    have finiteUser := (isFinite_withUser w c.userId?).trans finite
    rw [Lowerer.isSome_compileDocument_iff plain tidyUser runnableUser finiteUser,
      Lowerer.errors_compileDocument plain tidyUser runnableUser finiteUser, denoted?_withUser,
      routeErrors_withUser]
    exact ⟨⟨fun _ => rfl, fun _ => Workflow.code_of_mem_routeErrors⟩, fun _ => rfl, Iff.rfl⟩
  | false =>
    obtain ⟨none_built, e, he, code⟩ := Lowerer.compileDocument_of_not_finite (l := p.lowerer)
      tidyUser ((isFinite_withUser w c.userId?).trans finite)
    refine ⟨⟨fun routes => ?_, nofun⟩, nofun, ?_⟩
    · rcases routes e he with route | route <;> simp [route] at code
    · simp [none_built, List.ne_nil_of_mem he]

/-- A template with one trigger and a route from it. -/
def templateWithRoute (target : String) : Value :=
  .obj [("workflow_id", .str "w"), ("version", .int 1), ("actions", .arr []),
    ("triggers", .arr [.obj [("local_id", .str "t"), ("toolkit_slug", .str "mail"),
      ("trigger_ref", .str "new_mail")]]),
    ("flow_control", .obj [("routes", .arr [.obj [("from_ref", .str "t"),
      ("to_ref", .str target)]])])]

/-- A context with a user and a default for how often to try again. -/
def contextWithRetry (retry : RetryPolicy) : Context :=
  { mailContext with
    user := some ⟨some "u", none⟩
    defaults := { Policies.none with retry := some retry } }

/-- The built-in backoff is finite, so a route that leads nowhere is all that is wrong. -/
theorem run_adds_only_routeErrors_builtin :
    ∃ w, (run ⟨.standard, .standard⟩ (templateWithRoute "gone")
        (contextWithRetry .builtin)).executable = some w ∧
      w.isFinite = true ∧
      (run ⟨.standard, .standard⟩ (templateWithRoute "gone")
        (contextWithRetry .builtin)).diagnostics.errors = w.routeErrors w.denoted? ∧
      (w.routeErrors w.denoted?).map (·.code) = [.missingTargetRef] := by
  have finite : (run ⟨.standard, .standard⟩ (templateWithRoute "gone")
      (contextWithRetry .builtin)).executable.map
        (fun w => (w.isFinite, (w.routeErrors w.denoted?).map (·.code)))
      = some (true, [.missingTargetRef]) := by decide +kernel
  obtain ⟨w, handed, same⟩ := Option.map_eq_some_iff.mp finite
  obtain ⟨finite, codes⟩ := Prod.mk.inj same
  obtain ⟨added, errors, -, routes, -⟩ := run_adds_only_routeErrors_iff ⟨.standard, .standard⟩
    (templateWithRoute "gone") (contextWithRetry .builtin) w rfl RepairStrategy.none_keepsTidy handed
  have silent : (Materializer.standard.compile (templateWithRoute "gone")
      (contextWithRetry .builtin)).diagnostics.errors = [] := by decide +kernel
  refine ⟨w, handed, finite, ?_, codes⟩
  rw [errors, routes finite]
  simp [silent]

/-- The default backoff can be given as a text, and the text can be that of an infinity. The executable that
    comes out of the first stage is then turned down by the second. -/
theorem run_rejects_infinite_backoff :
    let retry := { RetryPolicy.builtin with backoffMultiplier := .infinity false }
    let outcome := run ⟨.standard, .standard⟩ (templateWithRoute "t") (contextWithRetry retry)
    Decoder.ofValue Policies.codec.decode
        (.obj [("retry", .obj [("backoff_multiplier", .str "inf")])])
      = .ok (contextWithRetry retry).defaults ∧
    outcome.executable.map (·.isFinite) = some false ∧
    outcome.diagnostics.errors.map (·.code) = [.internalError] := by
  decide +kernel

end Pipeline

end Flowgraph
