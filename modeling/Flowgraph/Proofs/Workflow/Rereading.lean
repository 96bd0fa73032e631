import Flowgraph.Proofs.Json.Rereading
import Flowgraph.Workflow.Codec

/-! Workflow documents read back. A workflow whose own members do not take the name of a field comes back in
    canonical form, just if every double in it is finite. -/

namespace Flowgraph

open Json Json.Record

/-! ### Finite doubles -/

def RetryPolicy.isFinite (r : RetryPolicy) : Bool := r.backoffMultiplier.isFinite

def Policies.isFinite (p : Policies) : Bool := p.retry.all (·.isFinite)

def Version.isFinite : Version → Bool
  | .float x => x.isFinite
  | .integer _ | .text _ | .flag _ => true

def ActionExec.isFinite (e : ActionExec) : Bool := e.retry.isFinite

def Action.isFinite (a : Action) : Bool := a.retry.all (·.isFinite) && a.exec.all (·.isFinite)

/-- Every double of the document is finite. -/
def Workflow.isFinite (w : Workflow) : Bool :=
  w.version.isFinite && w.actions.all (·.isFinite) && w.policies.all (·.isFinite)

/-! ### Canonical form -/

def TriggerExec.canonical (e : TriggerExec) : TriggerExec :=
  { e with configuration := e.configuration.canonical }

def Trigger.canonical (t : Trigger) : Trigger :=
  { t with
    configuration := t.configuration.canonical
    schedule := t.schedule.map Object.canonical
    exec := t.exec.map TriggerExec.canonical
    extra := t.extra.canonical }

def ActionExec.canonical (e : ActionExec) : ActionExec :=
  { e with
    requiredInputs := e.requiredInputs.canonical
    optionalInputs := e.optionalInputs.canonical }

def Action.canonical (a : Action) : Action :=
  { a with
    requiredInputs := a.requiredInputs.canonical
    optionalInputs := a.optionalInputs.canonical
    exec := a.exec.map ActionExec.canonical
    extra := a.extra.canonical }

def ConditionBranch.canonical (b : ConditionBranch) : ConditionBranch :=
  { b with expr := b.expr.canonical }

def Conditional.canonical (c : Conditional) : Conditional :=
  { c with branches := c.branches.map ConditionBranch.canonical }

def LoopBlock.canonical : LoopBlock → LoopBlock
  | .whileLoop l => .whileLoop { l with condition := l.condition.canonical }
  | .foreachLoop l => .foreachLoop { l with sourceArrayExpr := l.sourceArrayExpr.canonical }

/-- A condition that is `null` is none. -/
def Route.canonical (r : Route) : Route :=
  { r with condition := (r.condition.filter fun v => !v.isNull).map Value.canonical }

def FlowControl.canonical (f : FlowControl) : FlowControl :=
  { f with
    conditions := f.conditions.map Conditional.canonical
    loops := f.loops.map LoopBlock.canonical
    routes := f.routes.map Route.canonical }

/-- The workflow with every value in canonical form. -/
def Workflow.canonical (w : Workflow) : Workflow :=
  { w with
    triggers := w.triggers.map Trigger.canonical
    actions := w.actions.map Action.canonical
    flowControl := w.flowControl.map FlowControl.canonical
    extra := w.extra.canonical }

/-! ### Members of their own -/

def Trigger.fieldNames : List String :=
  ["local_id", "toolkit_slug", "trigger_ref", "delivery", "configuration", "connection_hint", "type",
    "schedule", "name", "exec"]

def Action.fieldNames : List String :=
  ["local_id", "toolkit_slug", "action_ref", "required_inputs", "optional_inputs", "retry",
    "timeout_ms", "rate_limit", "depends_on", "connection_hint", "output_vars", "name", "exec"]

def Workflow.fieldNames : List String :=
  ["workflow_id", "version", "triggers", "actions", "flow_control", "policies"]

/-- No member that is carried along has the name of a field. -/
structure Workflow.Tidy (w : Workflow) : Prop where
  extra : w.extra.FreeOf fieldNames
  triggers : ∀ t ∈ w.triggers, t.extra.FreeOf Trigger.fieldNames
  actions : ∀ a ∈ w.actions, a.extra.FreeOf Action.fieldNames

/-! ### Policies -/

theorem rereads_maybe_string {name : String} {get : σ → Option String} {known : List String}
    {s : σ} : (maybe name get .string).Rereads known s true (get s) :=
  .maybe_same (fun _ => nofun) Codec.rereads_string

theorem RetryPolicy.rereads (r : RetryPolicy) :
    RetryPolicy.codec.Rereads r r.isFinite r :=
  Record.rereads_codec (by decide)
    (.seq (.seq (.map (.defaulted (Codec.rereads_lenientUInt32 _))) rfl
      (.defaulted (Codec.rereads_lenientDouble _))) rfl
      (.defaulted (Codec.rereads_lenientUInt64 _)))
    (by simp [isFinite]) rfl

theorem RateLimit.rereads (r : RateLimit) : RateLimit.codec.Rereads r true r :=
  Record.rereads_codec (by decide) (.map (.defaulted (Codec.rereads_lenientUInt32 _))) rfl rfl

theorem Policies.rereads (p : Policies) : Policies.codec.Rereads p p.isFinite p :=
  Record.rereads_codec (by decide)
    (.seq (.seq (.seq (.map (.maybe (fun _ => nofun) fun r _ => r.rereads)) rfl
      (.maybe_same (fun _ => nofun) Codec.rereads_lenientUInt64)) rfl
      (.maybe_same (fun _ => nofun) RateLimit.rereads)) rfl
      (.maybe_same (fun _ => nofun) Codec.rereads_lenientUInt32))
    (by simp [isFinite]) (by simp)

/-! ### Triggers and actions -/

theorem TriggerExec.rereads (e : TriggerExec) : TriggerExec.codec.Rereads e true e.canonical :=
  Record.rereads_codec (by decide)
    (.seq (.seq (.seq (.seq (.map (.field (Codec.rereads_string _))) rfl
      (.field (Codec.rereads_string _))) rfl
      (.field (Codec.rereads_object _))) rfl
      (.field (Codec.rereads_string _))) rfl
      rereads_maybe_string)
    rfl rfl

theorem Trigger.rereads {t : Trigger} (free : t.extra.FreeOf fieldNames) :
    Trigger.codec.Rereads t true t.canonical :=
  Record.rereads_codec (by decide)
    (.seq (.seq (.seq (.seq (.seq (.seq (.seq (.seq (.seq (.seq
      (.map (.field (Codec.rereads_string _))) rfl
      (.defaulted (Codec.rereads_string _))) rfl
      (.defaulted (Codec.rereads_string _))) rfl
      rereads_maybe_string) rfl
      (.defaulted (Codec.rereads_object _))) rfl
      rereads_maybe_string) rfl
      rereads_maybe_string) rfl
      (.maybe (fun _ => nofun) fun o _ => Codec.rereads_object o)) rfl
      rereads_maybe_string) rfl
      (.maybe (fun _ => nofun) fun e _ => e.rereads)) rfl
      (.rest free))
    (by simp) rfl

theorem ActionExec.rereads (e : ActionExec) :
    ActionExec.codec.Rereads e e.isFinite e.canonical :=
  Record.rereads_codec (by decide)
    (.seq (.seq (.seq (.seq (.seq (.seq (.seq (.map (.field (Codec.rereads_string _))) rfl
      (.field (Codec.rereads_string _))) rfl
      (.field (Codec.rereads_string _))) rfl
      (.field (Codec.rereads_object _))) rfl
      (.field (Codec.rereads_object _))) rfl
      (.field (RetryPolicy.rereads _))) rfl
      (.field (Codec.rereads_uint64 _))) rfl
      (.field (RateLimit.rereads _)))
    (by simp [isFinite]) rfl

theorem Action.rereads {a : Action} (free : a.extra.FreeOf fieldNames) :
    Action.codec.Rereads a a.isFinite a.canonical :=
  Record.rereads_codec (by decide)
    (.seq (.seq (.seq (.seq (.seq (.seq (.seq (.seq (.seq (.seq (.seq (.seq (.seq
      (.map (.field (Codec.rereads_string _))) rfl
      (.defaulted (Codec.rereads_string _))) rfl
      (.defaulted (Codec.rereads_string _))) rfl
      (.defaulted (Codec.rereads_object _))) rfl
      (.defaulted (Codec.rereads_object _))) rfl
      (.maybe (fun _ => nofun) fun r _ => r.rereads)) rfl
      (.maybe_same (fun _ => nofun) Codec.rereads_lenientUInt64)) rfl
      (.maybe_same (fun _ => nofun) RateLimit.rereads)) rfl
      (.maybe_same (fun _ => nofun) (Codec.rereads_list_same Codec.rereads_string))) rfl
      rereads_maybe_string) rfl
      (.maybe_same (fun _ => nofun) (Codec.rereads_list_same Codec.rereads_string))) rfl
      rereads_maybe_string) rfl
      (.maybe (fun _ => nofun) fun e _ => e.rereads)) rfl
      (.rest free))
    (by simp [isFinite]) (by simp [Action.canonical])

/-! ### Control flow -/

theorem ConditionBranch.rereads (b : ConditionBranch) :
    ConditionBranch.codec.Rereads b true b.canonical :=
  Record.rereads_codec (by decide)
    (.seq (.seq (.map rereads_maybe_string) rfl
      (.defaulted (Codec.rereads_value _))) rfl
      (.defaulted (Codec.rereads_string _)))
    rfl rfl

theorem Conditional.rereads (c : Conditional) : Conditional.codec.Rereads c true c.canonical :=
  Record.rereads_codec (by decide)
    (.seq (.seq (.seq (.map rereads_maybe_string) rfl
      rereads_maybe_string) rfl
      (.defaulted (Codec.rereads_list fun b _ => b.rereads))) rfl
      rereads_maybe_string)
    (by simp) rfl

theorem ParallelBlock.rereads (b : ParallelBlock) : ParallelBlock.codec.Rereads b true b :=
  Record.rereads_codec (by decide)
    (.seq (.seq (.seq (.seq (.map rereads_maybe_string) rfl
      rereads_maybe_string) rfl
      (.defaulted (Codec.rereads_list_same Codec.rereads_string _))) rfl
      rereads_maybe_string) rfl
      rereads_maybe_string)
    rfl rfl

theorem Route.rereads (r : Route) : Route.codec.Rereads r true r.canonical :=
  Record.rereads_codec (by decide)
    (.seq (.seq (.seq (.seq (.map (.defaulted (Codec.rereads_string _))) rfl
      (.defaulted (Codec.rereads_string _))) rfl
      rereads_maybe_string) rfl
      .maybe_value) rfl
      rereads_maybe_string)
    rfl rfl

theorem WhileLoop.rereads (l : WhileLoop) :
    WhileLoop.codec.Rereads l true { l with condition := l.condition.canonical } ∧
      ∃ ms, WhileLoop.codec.encode l = .obj ms ∧ ∀ m ∈ ms, m.1 ≠ "kind" :=
  Record.rereads_untagged "kind" (by decide)
    (.seq (.seq (.seq (.seq (.map rereads_maybe_string) rfl
      rereads_maybe_string) rfl
      (.defaulted (Codec.rereads_value _))) rfl
      rereads_maybe_string) rfl
      (.maybe_same (fun _ => nofun) Codec.rereads_lenientUInt32))
    rfl rfl rfl (by decide)

theorem ForeachLoop.rereads (l : ForeachLoop) :
    ForeachLoop.codec.Rereads l true { l with sourceArrayExpr := l.sourceArrayExpr.canonical } ∧
      ∃ ms, ForeachLoop.codec.encode l = .obj ms ∧ ∀ m ∈ ms, m.1 ≠ "kind" :=
  Record.rereads_untagged "kind" (by decide)
    (.seq (.seq (.seq (.seq (.seq (.seq (.map rereads_maybe_string) rfl
      rereads_maybe_string) rfl
      (.defaulted (Codec.rereads_value _))) rfl
      rereads_maybe_string) rfl
      rereads_maybe_string) rfl
      rereads_maybe_string) rfl
      (.maybe_same (fun _ => nofun) Codec.rereads_lenientUInt32))
    rfl rfl rfl (by decide)

/-- The kind of a loop is taken off again, and the rest is read as a loop of that kind. -/
theorem LoopBlock.decode_withKind {c : Codec β} {kind : String} {loop back : β}
    {wrap : β → LoopBlock}
    (h : c.Rereads loop true back ∧ ∃ ms, c.encode loop = .obj ms ∧ ∀ m ∈ ms, m.1 ≠ "kind")
    (choice : ∀ body, ofKind (.str kind) body = (Decoder.ofSetAside c.decode body).map wrap)
    {p : Place} (hp : p.origin ≠ .text) :
    LoopBlock.codec.decode p (withKind kind (c.encode loop)).canonical.toTree
      = .ok (wrap back) := by
  obtain ⟨rereads, ms, written, untagged⟩ := h
  have tagged : Object.member? (Object.canonical (("kind", .str kind) :: ms)) "kind"
      = some (.str kind) := by
    rw [Object.member?_canonical, Object.last?_cons, Object.last?_eq_none untagged]
    rfl
  have read : Decoder.ofSetAside c.decode (.obj (Object.canonical ms)) = .ok back := by
    have back_again := rereads ⟨.setAside, 0⟩ back nofun
    rw [written] at back_again
    exact back_again.mpr ⟨rfl, rfl⟩
  change Decoder.setAside LoopBlock.ofValue p _ = _
  rw [Codec.setAside_eq hp, written]
  change LoopBlock.ofValue (.obj (Object.canonical (("kind", .str kind) :: ms))) = _
  rw [LoopBlock.ofValue, tagged]
  change ofKind (.str kind) (.obj (Object.without "kind" _)) = _
  rw [choice, Object.without_canonical untagged, read]
  rfl

theorem LoopBlock.rereads (l : LoopBlock) : LoopBlock.codec.Rereads l true l.canonical := by
  intro p x hp
  have read : LoopBlock.codec.decode p (LoopBlock.codec.encode l).canonical.toTree
      = .ok l.canonical := by
    cases l with
    | whileLoop l => exact decode_withKind l.rereads (fun _ => rfl) hp
    | foreachLoop l => exact decode_withKind l.rereads (fun _ => rfl) hp
  rw [read]
  simp

theorem FlowControl.rereads (f : FlowControl) : FlowControl.codec.Rereads f true f.canonical :=
  Record.rereads_codec (by decide)
    (.seq (.seq (.seq (.map (.unlessEmpty fun c _ => c.rereads)) rfl
      (.unlessEmpty fun b _ => b.rereads)) rfl
      (.unlessEmpty fun l _ => l.rereads)) rfl
      (.unlessEmpty fun r _ => r.rereads))
    (by simp) (by simp [FlowControl.canonical])

/-! ### Workflows -/

theorem int64_ofInt_toInt (n : Int64) :
    (int64Min ≤ n.toInt ∧ n.toInt ≤ int64Max) ∧ Int64.ofInt n.toInt = n :=
  ⟨⟨n.minValue_le_toInt, n.toInt_le⟩, Int64.ofInt_toInt n⟩

theorem Version.rereads (v : Version) : Version.codec.Rereads v v.isFinite v := by
  intro p x hp
  change Decoder.setAside Version.ofValue p (Version.codec.encode v).canonical.toTree = .ok x ↔ _
  rw [Codec.setAside_eq hp]
  cases v with
  | integer n =>
    obtain ⟨range, same⟩ := int64_ofInt_toInt n
    simp [Version.codec, Value.int, Value.canonical, Version.ofValue, range, same, isFinite]
  | float y =>
    cases h : y.isFinite <;>
      simp [Version.codec, Value.float, h, Value.canonical, Version.ofValue, isFinite]
  | text s => simp [Version.codec, Value.canonical, Version.ofValue, isFinite]
  | flag b => simp [Version.codec, Value.canonical, Version.ofValue, isFinite]

/-- A tidy workflow is read back in canonical form, just if its doubles are finite. -/
theorem Workflow.rereads {w : Workflow} (tidy : w.Tidy) :
    Workflow.codec.Rereads w w.isFinite w.canonical :=
  Record.rereads_codec (by decide)
    (.seq (.seq (.seq (.seq (.seq (.seq (.map (.field (Codec.rereads_string _))) rfl
      (.field (Version.rereads _))) rfl
      (.field (Codec.rereads_list fun t ht => Trigger.rereads (tidy.triggers t ht)))) rfl
      (.field (Codec.rereads_list fun a ha => Action.rereads (tidy.actions a ha)))) rfl
      (.maybe (fun _ => nofun) fun f _ => f.rereads)) rfl
      (.maybe (fun _ => nofun) fun p _ => p.rereads)) rfl
      (.rest tidy.extra))
    (by simp [isFinite, Codec.all_true]) (by simp [Workflow.canonical])

end Flowgraph
