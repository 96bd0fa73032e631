import Flowgraph.Proofs.Json.Filling
import Flowgraph.Proofs.Workflow.Rereading

/-! Workflow documents with answers filled in: a document that reads as a workflow reads, once the answers are
    filled in, as the workflow with the answers in its texts. -/

namespace Flowgraph

open Json Json.Record Placeholder

/-! ### Workflows with answers -/

section
variable (answers : Object)

def Version.fill : Version → Version
  | .text s => .text (render s answers)
  | v => v

def TriggerExec.fill (e : TriggerExec) : TriggerExec where
  provider := render e.provider answers
  triggerSlug := render e.triggerSlug answers
  configuration := e.configuration.mapValues (apply answers)
  connectionId := render e.connectionId answers
  instanceId := e.instanceId.map (render · answers)

def Trigger.fill (t : Trigger) : Trigger where
  localId := render t.localId answers
  toolkitSlug := render t.toolkitSlug answers
  triggerRef := render t.triggerRef answers
  delivery := t.delivery.map (render · answers)
  configuration := t.configuration.mapValues (apply answers)
  connectionHint := t.connectionHint.map (render · answers)
  kind := t.kind.map (render · answers)
  schedule := t.schedule.map (Object.mapValues (apply answers))
  name := t.name.map (render · answers)
  exec := t.exec.map (TriggerExec.fill answers)
  extra := t.extra.mapValues (apply answers)

def ActionExec.fill (e : ActionExec) : ActionExec :=
  { e with
    provider := render e.provider answers
    actionSlug := render e.actionSlug answers
    connectionId := render e.connectionId answers
    requiredInputs := e.requiredInputs.mapValues (apply answers)
    optionalInputs := e.optionalInputs.mapValues (apply answers) }

def Action.fill (a : Action) : Action :=
  { a with
    localId := render a.localId answers
    toolkitSlug := render a.toolkitSlug answers
    actionRef := render a.actionRef answers
    requiredInputs := a.requiredInputs.mapValues (apply answers)
    optionalInputs := a.optionalInputs.mapValues (apply answers)
    dependsOn := a.dependsOn.map (List.map (render · answers))
    connectionHint := a.connectionHint.map (render · answers)
    outputVars := a.outputVars.map (List.map (render · answers))
    name := a.name.map (render · answers)
    exec := a.exec.map (ActionExec.fill answers)
    extra := a.extra.mapValues (apply answers) }

def ConditionBranch.fill (b : ConditionBranch) : ConditionBranch where
  name := b.name.map (render · answers)
  expr := apply answers b.expr
  toRef := render b.toRef answers

def Conditional.fill (c : Conditional) : Conditional where
  localId := c.localId.map (render · answers)
  incomingRef := c.incomingRef.map (render · answers)
  branches := c.branches.map (ConditionBranch.fill answers)
  elseRef := c.elseRef.map (render · answers)

def ParallelBlock.fill (b : ParallelBlock) : ParallelBlock where
  localId := b.localId.map (render · answers)
  incomingRef := b.incomingRef.map (render · answers)
  branches := b.branches.map (render · answers)
  outgoingRef := b.outgoingRef.map (render · answers)
  joinRef := b.joinRef.map (render · answers)

def WhileLoop.fill (l : WhileLoop) : WhileLoop :=
  { l with
    localId := l.localId.map (render · answers)
    incomingRef := l.incomingRef.map (render · answers)
    condition := apply answers l.condition
    bodyRef := l.bodyRef.map (render · answers) }

def ForeachLoop.fill (l : ForeachLoop) : ForeachLoop :=
  { l with
    localId := l.localId.map (render · answers)
    incomingRef := l.incomingRef.map (render · answers)
    sourceArrayExpr := apply answers l.sourceArrayExpr
    itemVar := l.itemVar.map (render · answers)
    indexVar := l.indexVar.map (render · answers)
    bodyRef := l.bodyRef.map (render · answers) }

def LoopBlock.fill : LoopBlock → LoopBlock
  | .whileLoop l => .whileLoop (l.fill answers)
  | .foreachLoop l => .foreachLoop (l.fill answers)

def Route.fill (r : Route) : Route where
  fromRef := render r.fromRef answers
  toRef := render r.toRef answers
  when := r.when.map (render · answers)
  condition := r.condition.map (apply answers)
  label := r.label.map (render · answers)

def FlowControl.fill (f : FlowControl) : FlowControl where
  conditions := f.conditions.map (Conditional.fill answers)
  parallels := f.parallels.map (ParallelBlock.fill answers)
  loops := f.loops.map (LoopBlock.fill answers)
  routes := f.routes.map (Route.fill answers)

/-- The workflow with the answers filled into its texts; its policies have none. -/
def Workflow.fill (w : Workflow) : Workflow :=
  { w with
    id := render w.id answers
    version := w.version.fill answers
    triggers := w.triggers.map (Trigger.fill answers)
    actions := w.actions.map (Action.fill answers)
    flowControl := w.flowControl.map (FlowControl.fill answers)
    extra := w.extra.mapValues (apply answers) }

end

variable {answers : Object}

/-! ### Policies -/

theorem RetryPolicy.fills : RetryPolicy.codec.decode.Fills answers id := by
  refine Record.decode_fills fun scope => .seq (.seq (.map (.defaulted .lenientUInt32 rfl) ?_)
    (.defaulted .lenientDouble rfl)) (.defaulted .lenientUInt64 rfl)
  rintro attempts _ rfl multiplier _ rfl delay _ rfl
  rfl

theorem RateLimit.fills : RateLimit.codec.decode.Fills answers id := by
  refine Record.decode_fills fun scope => .map (.defaulted .lenientUInt32 rfl) ?_
  rintro rate _ rfl
  rfl

theorem Policies.fills : Policies.codec.decode.Fills answers id := by
  refine Record.decode_fills fun scope => .seq (.seq (.seq (.map (.maybe RetryPolicy.fills) ?_)
    (.maybe .lenientUInt64)) (.maybe RateLimit.fills)) (.maybe .lenientUInt32)
  rintro retry _ rfl timeout _ rfl limit _ rfl parallelism _ rfl
  simp

/-! ### Triggers and actions -/

theorem render_empty : render "" answers = "" := render_of_plain (by simp) answers

theorem Version.fills : Version.codec.decode.Fills answers (Version.fill answers) := by
  refine .setAside fun v version read => ?_
  cases v with
  | num n =>
    cases n with
    | int n =>
      cases read
      simp only [apply, Version.ofValue]
      split <;> rfl
    | float x => cases read; rfl
  | str s => cases read; rw [apply_str]; rfl
  | bool b => cases read; rfl
  | null | arr _ | obj _ => cases read

theorem TriggerExec.fills : TriggerExec.codec.decode.Fills answers (TriggerExec.fill answers) := by
  refine Record.decode_fills fun scope => .seq (.seq (.seq (.seq (.map (.field .string) ?_)
    (.field .string)) (.field .object)) (.field .string)) (.maybe .string)
  rintro provider _ rfl slug _ rfl configuration _ rfl connection _ rfl instanceId _ rfl
  rfl

theorem Trigger.fills : Trigger.codec.decode.Fills answers (Trigger.fill answers) := by
  refine Record.decode_fills fun scope => .seq (.seq (.seq (.seq (.seq (.seq (.seq (.seq (.seq (.seq
    (.map (.field .string) ?_) (.defaulted .string render_empty)) (.defaulted .string render_empty))
    (.maybe .string)) (.defaulted .object rfl)) (.maybe .string)) (.maybe .string))
    (.maybe .object)) (.maybe .string)) (.maybe TriggerExec.fills)) .rest
  rintro id _ rfl toolkit _ rfl ref _ rfl delivery _ rfl configuration _ rfl hint _ rfl kind _ rfl
    schedule _ rfl name _ rfl exec _ rfl extra _ rfl
  rfl

theorem ActionExec.fills : ActionExec.codec.decode.Fills answers (ActionExec.fill answers) := by
  refine Record.decode_fills fun scope => .seq (.seq (.seq (.seq (.seq (.seq (.seq
    (.map (.field .string) ?_) (.field .string)) (.field .string)) (.field .object))
    (.field .object)) (.field RetryPolicy.fills)) (.field .uint64)) (.field RateLimit.fills)
  rintro provider _ rfl slug _ rfl connection _ rfl required _ rfl optional _ rfl retry _ rfl
    timeout _ rfl limit _ rfl
  rfl

theorem Action.fills : Action.codec.decode.Fills answers (Action.fill answers) := by
  refine Record.decode_fills fun scope => .seq (.seq (.seq (.seq (.seq (.seq (.seq (.seq (.seq (.seq
    (.seq (.seq (.seq (.map (.field .string) ?_) (.defaulted .string render_empty))
    (.defaulted .string render_empty)) (.defaulted .object rfl)) (.defaulted .object rfl))
    (.maybe RetryPolicy.fills)) (.maybe .lenientUInt64)) (.maybe RateLimit.fills))
    (.maybe (.list .string))) (.maybe .string)) (.maybe (.list .string))) (.maybe .string))
    (.maybe ActionExec.fills)) .rest
  rintro id _ rfl toolkit _ rfl ref _ rfl required _ rfl optional _ rfl retry _ rfl timeout _ rfl
    limit _ rfl depends _ rfl hint _ rfl vars _ rfl name _ rfl exec _ rfl extra _ rfl
  simp [Action.fill]

/-! ### Control flow -/

theorem ConditionBranch.fills :
    ConditionBranch.codec.decode.Fills answers (ConditionBranch.fill answers) := by
  refine Record.decode_fills fun scope => .seq (.seq (.map (.maybe .string) ?_)
    (.defaulted .value rfl)) (.defaulted .string render_empty)
  rintro name _ rfl expr _ rfl ref _ rfl
  rfl

theorem Conditional.fills : Conditional.codec.decode.Fills answers (Conditional.fill answers) := by
  refine Record.decode_fills fun scope => .seq (.seq (.seq (.map (.maybe .string) ?_)
    (.maybe .string)) (.defaulted (.list ConditionBranch.fills) rfl)) (.maybe .string)
  rintro id _ rfl incoming _ rfl branches _ rfl otherwise _ rfl
  rfl

theorem ParallelBlock.fills :
    ParallelBlock.codec.decode.Fills answers (ParallelBlock.fill answers) := by
  refine Record.decode_fills fun scope => .seq (.seq (.seq (.seq (.map (.maybe .string) ?_)
    (.maybe .string)) (.defaulted (.list .string) rfl)) (.maybe .string)) (.maybe .string)
  rintro id _ rfl incoming _ rfl branches _ rfl outgoing _ rfl join _ rfl
  rfl

theorem WhileLoop.fills : WhileLoop.codec.decode.Fills answers (WhileLoop.fill answers) := by
  refine Record.decode_fills fun scope => .seq (.seq (.seq (.seq (.map (.maybe .string) ?_)
    (.maybe .string)) (.defaulted .value rfl)) (.maybe .string)) (.maybe .lenientUInt32)
  rintro id _ rfl incoming _ rfl condition _ rfl body _ rfl iterations _ rfl
  simp [WhileLoop.fill]

theorem ForeachLoop.fills : ForeachLoop.codec.decode.Fills answers (ForeachLoop.fill answers) := by
  refine Record.decode_fills fun scope => .seq (.seq (.seq (.seq (.seq (.seq
    (.map (.maybe .string) ?_) (.maybe .string)) (.defaulted .value rfl)) (.maybe .string))
    (.maybe .string)) (.maybe .string)) (.maybe .lenientUInt32)
  rintro id _ rfl incoming _ rfl source _ rfl item _ rfl index _ rfl body _ rfl concurrency _ rfl
  simp [ForeachLoop.fill]

theorem ofSetAside_apply {d : Decoder α} {f : α → α} (fills : d.Fills answers f) {v : Value} {a : α}
    (read : Decoder.ofSetAside d v = .ok a) :
    Decoder.ofSetAside d (apply answers v) = .ok (f a) := by
  rw [Decoder.ofSetAside, toTree_apply]
  exact fills _ _ _ read

theorem LoopBlock.ofKind_apply {kind body : Value} {l : LoopBlock}
    (h : LoopBlock.ofKind kind body = .ok l) :
    LoopBlock.ofKind (apply answers kind) (apply answers body) = .ok (l.fill answers) := by
  cases kind with
  | str name =>
    obtain ⟨isWhile, known, h⟩ := bind_eq_ok.mp h
    -- The names of the kinds have no braces.
    have unchanged : render name answers = name := by
      refine render_of_plain ?_ answers
      by_cases first : name = "while"
      · rw [first]; decide
      · by_cases second : name = "foreach"
        · rw [second]; decide
        · simp [Decoder.variantName, List.lookup_cons, beq_false_of_ne first,
            beq_false_of_ne second] at known
    rw [apply_str, unchanged]
    refine bind_eq_ok.mpr ⟨isWhile, known, ?_⟩
    cases isWhile with
    | true =>
      obtain ⟨loop, read, rfl⟩ := map_eq_ok.mp h
      exact map_eq_ok.mpr ⟨_, ofSetAside_apply WhileLoop.fills read, rfl⟩
    | false =>
      obtain ⟨loop, read, rfl⟩ := map_eq_ok.mp h
      exact map_eq_ok.mpr ⟨_, ofSetAside_apply ForeachLoop.fills read, rfl⟩
  | null | bool _ | num _ | arr _ | obj _ => cases h

theorem LoopBlock.fills : LoopBlock.codec.decode.Fills answers (LoopBlock.fill answers) := by
  refine .setAside fun v l read => ?_
  cases v with
  | obj ms =>
    have kinds : Object.member? (Object.mapValues (apply answers) ms) "kind"
        = (Object.member? ms "kind").map (apply answers) := Object.member?_map ..
    have others : Object.without "kind" (Object.mapValues (apply answers) ms)
        = Object.mapValues (apply answers) (Object.without "kind" ms) := List.filter_map ..
    rw [LoopBlock.ofValue] at read
    rw [apply_obj, LoopBlock.ofValue, kinds, others, ← apply_obj]
    cases named : Object.member? ms "kind" with
    | none => rw [named] at read; cases read
    | some kind =>
      rw [named] at read
      exact ofKind_apply read
  | arr items =>
    cases items with
    | nil => cases read
    | cons kind body =>
      have there : LoopBlock.ofKind kind (.arr body) = .ok l := read
      exact ofKind_apply there
  | null | bool _ | num _ | str _ => cases read

theorem Route.fills : Route.codec.decode.Fills answers (Route.fill answers) := by
  refine Record.decode_fills fun scope => .seq (.seq (.seq (.seq
    (.map (.defaulted .string render_empty) ?_) (.defaulted .string render_empty)) (.maybe .string))
    (.maybe .value)) (.maybe .string)
  rintro source _ rfl target _ rfl when _ rfl condition _ rfl label _ rfl
  rfl

theorem FlowControl.fills : FlowControl.codec.decode.Fills answers (FlowControl.fill answers) := by
  refine Record.decode_fills fun scope => .seq (.seq (.seq (.map (.unlessEmpty Conditional.fills) ?_)
    (.unlessEmpty ParallelBlock.fills)) (.unlessEmpty LoopBlock.fills)) (.unlessEmpty Route.fills)
  rintro conditions _ rfl parallels _ rfl loops _ rfl routes _ rfl
  rfl

/-! ### Workflows -/

namespace Workflow

theorem fills : Workflow.codec.decode.Fills answers (Workflow.fill answers) := by
  refine Record.decode_fills fun scope => .seq (.seq (.seq (.seq (.seq (.seq (.map (.field .string) ?_)
    (.field Version.fills)) (.field (.list Trigger.fills))) (.field (.list Action.fills)))
    (.maybe FlowControl.fills)) (.maybe Policies.fills)) .rest
  rintro id _ rfl version _ rfl triggers _ rfl actions _ rfl flow _ rfl policies _ rfl extra _ rfl
  simp [Workflow.fill]

/-- A document that is read as a workflow is read, with answers, as the workflow with the answers. -/
theorem ofValue_apply {v : Value} {w : Workflow} (read : Workflow.ofValue v = .ok w) :
    Workflow.ofValue (apply answers v) = .ok (w.fill answers) := by
  rw [ofValue, Decoder.ofValue, toTree_apply]
  exact fills _ _ _ read

/-- Answers do not change a number. -/
theorem isFinite_fill (w : Workflow) : (w.fill answers).isFinite = w.isFinite := by
  have version : (w.version.fill answers).isFinite = w.version.isFinite := by
    cases w.version <;> rfl
  have action (a : Action) : (a.fill answers).isFinite = a.isFinite := by
    cases h : a.exec <;> simp [Action.isFinite, Action.fill, ActionExec.fill, ActionExec.isFinite, h]
  simp only [isFinite, fill, version, List.all_map, Function.comp_def, action]

end Workflow

end Flowgraph
