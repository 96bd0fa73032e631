import Flowgraph.Proofs.Idempotence
import Flowgraph.Proofs.Workflow.Filling
import Flowgraph.Proofs.Workflow.Straightening

/-! The two ways to compile a template: as the document it is, or as the workflow that is read from it. They
    lead to the same executable, except that a policy which is to be an object and is a list counts only for
    the second. -/

namespace Flowgraph

open Json Json.Record Placeholder PolicyNumbers

/-! ### Answers -/

section
variable (answers : Object)

theorem isList_apply (v : Value) : (apply answers v).isList = v.isList := by
  cases v <;> rfl

theorem isText_apply (v : Value) : (apply answers v).isText = v.isText := by
  cases v <;> rfl

theorem unlessListed_apply (v : Value) (key : String) (x : Option α) :
    unlessListed (apply answers v) key x = unlessListed v key x := by
  have same : (apply answers v).listsAt key = v.listsAt key := by
    rw [Value.listsAt, member?_apply, Value.listsAt]
    cases v.member? key with
    | none => rfl
    | some u => exact isList_apply answers u
  rw [unlessListed, same, unlessListed]

theorem spellsClampedTime_apply (v : Value) (key : String) (time : Option UInt64) :
    spellsClampedTime (apply answers v) key time = spellsClampedTime v key time := by
  rw [spellsClampedTime, member?_apply, spellsClampedTime]
  cases v.member? key with
  | none => rfl
  | some u => rw [Option.map_some, Option.any_some, isText_apply, Option.any_some]

theorem getD_map_apply (v : Option Value) :
    (v.map (apply answers)).getD .null = apply answers (v.getD .null) := by
  cases v <;> rfl

theorem spellsClampedTimes_apply (v : Value) (retry : Option RetryPolicy) (timeoutMs : Option UInt64) :
    spellsClampedTimes (apply answers v) retry timeoutMs = spellsClampedTimes v retry timeoutMs := by
  simp only [spellsClampedTimes, member?_apply, getD_map_apply, spellsClampedTime_apply]

namespace Workflow

theorem policiesOf_apply (doc : Value) :
    policiesOf (apply answers doc) = apply answers (policiesOf doc) := by
  rw [policiesOf, member?_apply, getD_map_apply, policiesOf]

/-- It is the same to fill in answers before and after the lists are left out. -/
theorem withoutLists_fill (doc : Value) (w : Workflow) :
    (w.fill answers).withoutLists (apply answers doc) = (w.withoutLists doc).fill answers := by
  have action (item : Value) (a : Action) : (a.fill answers).withoutLists (apply answers item)
      = (a.withoutLists item).fill answers := by
    simp only [Action.withoutLists, Action.fill, unlessListed_apply]
  have policies : Policies.withoutLists (policiesOf (apply answers doc))
      = Policies.withoutLists (policiesOf doc) := by
    funext q
    simp only [Policies.withoutLists, policiesOf_apply, unlessListed_apply]
  simp only [withoutLists, fill, itemsAt_apply, List.zipWith_map, List.map_zipWith, action, policies]

theorem hasDisputedTime_fill (doc : Value) (w : Workflow) :
    (w.fill answers).hasDisputedTime (apply answers doc) = w.hasDisputedTime doc := by
  have action (a : Action) : (a.fill answers).retry = a.retry ∧ (a.fill answers).timeoutMs = a.timeoutMs :=
    ⟨rfl, rfl⟩
  simp only [hasDisputedTime, fill, itemsAt_apply, policiesOf_apply, isList_apply, List.zip_map,
    List.any_map, Function.comp_def, Prod.map, action, spellsClampedTimes_apply]

end Workflow

end

/-! ### Written documents -/

/-- The policies of a set are written under their names. -/
structure WritesPolicies (v : Value) (retry : Option RetryPolicy) (timeoutMs : Option UInt64)
    (rateLimit : Option RateLimit) : Prop where
  retry : v.member? "retry" = retry.map RetryPolicy.codec.toValue
  timeoutMs : v.member? "timeout_ms" = timeoutMs.map Codec.lenientUInt64.toValue
  rateLimit : v.member? "rate_limit" = rateLimit.map RateLimit.codec.toValue

namespace WritesPolicies

variable {v : Value} {retry : Option RetryPolicy} {timeoutMs : Option UInt64}
  {rateLimit : Option RateLimit} (h : WritesPolicies v retry timeoutMs rateLimit)
include h

theorem unlessListed_retry : unlessListed v "retry" retry = retry := by
  rw [unlessListed, Value.listsAt, h.retry]
  cases retry <;> rfl

theorem unlessListed_rateLimit : unlessListed v "rate_limit" rateLimit = rateLimit := by
  rw [unlessListed, Value.listsAt, h.rateLimit]
  cases rateLimit <;> rfl

/-- Times are written as numbers. -/
theorem spellsClampedTimes_eq_false : spellsClampedTimes v retry timeoutMs = false := by
  have limit : spellsClampedTime v "timeout_ms" timeoutMs = false := by
    rw [spellsClampedTime, h.timeoutMs]
    cases timeoutMs <;> rfl
  rw [spellsClampedTimes, limit, h.retry]
  cases retry with
  | none => rfl
  | some r =>
    have delay : (RetryPolicy.codec.toValue r).member? "initial_delay_ms"
        = some (Codec.lenientUInt64.toValue r.initialDelayMs) := by
      simp [RetryPolicy.codec, Object.last?_append]
    rw [Option.map_some, Option.getD_some, spellsClampedTime, delay]
    rfl

end WritesPolicies

theorem Action.writesPolicies {a : Action} (free : a.extra.FreeOf fieldNames) :
    WritesPolicies (Action.codec.toValue a) a.retry a.timeoutMs a.rateLimit := by
  have other (name : String) (known : name ∈ fieldNames) := last?_write_rest free name known
  refine ⟨?_, ?_, ?_⟩ <;>
    simp [Action.codec, Object.last?_append, Function.comp_def, other "retry" (by decide),
      other "timeout_ms" (by decide), other "rate_limit" (by decide)]

theorem Policies.writesPolicies (q : Policies) :
    WritesPolicies (Policies.codec.toValue q) q.retry q.timeoutMs q.rateLimit := by
  refine ⟨?_, ?_, ?_⟩ <;> simp [Policies.codec, Object.last?_append, Function.comp_def]

namespace Workflow

section
variable {w : Workflow} (tidy : w.Tidy)
include tidy

theorem itemsAt_actions : w.toValue.itemsAt "actions" = w.actions.map Action.codec.toValue := by
  rw [Value.itemsAt, member?_actions tidy]

theorem policiesOf_toValue {q : Policies} (set : w.policies = some q) :
    policiesOf w.toValue = Policies.codec.toValue q := by
  rw [policiesOf, member?_policies tidy, set]
  rfl

/-- No policy is written as a list. -/
theorem withoutLists_toValue : w.withoutLists w.toValue = w := by
  have actions : ∀ a ∈ w.actions, a.withoutLists (Action.codec.toValue a) = a := by
    intro a ha
    have written := Action.writesPolicies (tidy.actions a ha)
    rw [Action.withoutLists, written.unlessListed_retry, written.unlessListed_rateLimit]
  have policies : w.policies.map (Policies.withoutLists (policiesOf w.toValue)) = w.policies := by
    refine option_map_eq_self fun q set => ?_
    rw [policiesOf_toValue tidy set, Policies.withoutLists, q.writesPolicies.unlessListed_retry,
      q.writesPolicies.unlessListed_rateLimit]
  rw [withoutLists, itemsAt_actions tidy, List.zipWith_map_left, List.zipWith_self, policies,
    map_eq_self actions]

theorem hasDisputedTime_toValue : w.hasDisputedTime w.toValue = false := by
  rw [hasDisputedTime, itemsAt_actions tidy, Bool.or_eq_false_iff]
  constructor
  · rw [List.zip_eq_zipWith, List.zipWith_map_left, List.zipWith_self, List.any_map, List.any_eq_false]
    intro a ha
    have written := Action.writesPolicies (tidy.actions a ha)
    simp [written.spellsClampedTimes_eq_false]
  · cases set : w.policies with
    | none => rfl
    | some q =>
      rw [policiesOf_toValue tidy set, Option.any_some, q.writesPolicies.spellsClampedTimes_eq_false]
      rfl

end

theorem exists_of_mem_withoutLists {doc : Value} {w : Workflow} {a : Action}
    (h : a ∈ (w.withoutLists doc).actions) : ∃ item, ∃ b ∈ w.actions, a = b.withoutLists item := by
  obtain ⟨i, bound, rfl⟩ := List.mem_iff_getElem.mp h
  simp only [withoutLists] at bound ⊢
  rw [List.getElem_zipWith]
  exact ⟨_, _, List.getElem_mem _, rfl⟩

/-- A workflow that was read is read back after the lists are left out. -/
theorem ofValue_toValue_withoutLists {doc : Value} {w : Workflow}
    (read : Workflow.ofValue doc = .ok w) (finite : (w.withoutLists doc).isFinite = true) :
    (w.withoutLists doc).Tidy ∧
      Workflow.ofValue (w.withoutLists doc).toValue = .ok (w.withoutLists doc) := by
  have tidy := tidy_of_ofValue read
  have canonical := canonical_of_ofValue read
  have actions : ∀ b ∈ w.actions, b.canonical = b := List.map_inj_left.mp <|
    (congrArg Workflow.actions canonical).trans (List.map_id' _).symm
  have kept : (w.withoutLists doc).Tidy := by
    refine ⟨tidy.extra, tidy.triggers, fun a ha => ?_⟩
    obtain ⟨item, b, hb, rfl⟩ := exists_of_mem_withoutLists ha
    exact tidy.actions b hb
  have same : (w.withoutLists doc).actions.map Action.canonical = (w.withoutLists doc).actions := by
    refine map_eq_self fun a ha => ?_
    obtain ⟨item, b, hb, rfl⟩ := exists_of_mem_withoutLists ha
    exact congrArg (Action.withoutLists item) (actions b hb)
  refine ⟨kept, (ofValue_toValue kept).mpr ⟨finite, ?_⟩⟩
  change { w.canonical with
    actions := (w.withoutLists doc).actions.map Action.canonical
    policies := (w.withoutLists doc).policies } = _
  rw [same, canonical]
  rfl

end Workflow

/-! ### Compiling -/

/-- Repairs that do not depend on what was reported. -/
def RepairStrategy.IgnoresReport (repair : RepairStrategy) : Prop :=
  ∀ w log log', (repair w log).1 = (repair w log').1

theorem RepairStrategy.none_ignoresReport : none.IgnoresReport := fun _ _ _ => rfl

theorem RepairStrategy.dropUnresolved_ignoresReport : dropUnresolved.IgnoresReport :=
  fun _ _ _ => rfl

namespace Materializer

theorem document_finish_eq {m : Materializer} (ignores : m.repair.IgnoresReport) (w : Workflow)
    (log log' : Diagnostics) : (m.finish w log).document = (m.finish w log').document := by
  simp only [finish]
  rw [ignores w _ (log' ++ m.scanner.scan w.toValue)]
  cases missingExecErrors (m.repair w (log' ++ m.scanner.scan w.toValue)).1 <;> rfl

/-- What a template is compiled to that reads as a workflow. -/
theorem document_compile {m : Materializer} (ignores : m.repair.IgnoresReport) {template : Value}
    {w : Workflow} (canonical : template.canonical = template)
    (read : Workflow.ofValue template = .ok w) (finite : (w.withoutLists template).isFinite = true)
    (plain : w.hasDisputedTime template = false) (c : Context) (log : Diagnostics) :
    (m.compile template c).document
      = (m.finish (c.resolve ((w.withoutLists template).fill c.answers).straighten).value log).document := by
  have prepared : Workflow.ofValue (prepare template c.answers).value
      = .ok ((w.withoutLists template).fill c.answers).straighten := by
    simp only [prepare, Traced.value_bind]
    rw [← Workflow.withoutLists_fill]
    refine Workflow.ofValue_coerce ?_ (Workflow.ofValue_apply read) ?_ ?_
    · rw [canonical_apply, canonical]
    · rw [Workflow.withoutLists_fill, Workflow.isFinite_fill, finite]
    · rw [Workflow.hasDisputedTime_fill, plain]
  rw [compile_of_read m (validate_of_ofValue read) prepared]
  exact document_finish_eq ignores ..

/-- A template compiles to what the workflow compiles to that is read from it, less the policies that the
    template has as lists. -/
theorem compile_agrees_with_compileDocument (m : Materializer) (ignores : m.repair.IgnoresReport)
    (template : Value) (w : Workflow) (c : Context) (canonical : template.canonical = template)
    (read : Workflow.ofValue template = .ok w) (finite : (w.withoutLists template).isFinite = true)
    (plain : w.hasDisputedTime template = false) :
    (m.compile template c).document = (m.compileDocument (w.withoutLists template) c).document := by
  obtain ⟨tidy, again⟩ := Workflow.ofValue_toValue_withoutLists read finite
  have raw := document_compile ignores canonical read finite plain c .empty
  have whole := Workflow.withoutLists_toValue tidy
  have settled : (w.withoutLists template).toValue.canonical = (w.withoutLists template).toValue :=
    Value.canonical_canonical _
  have typed := document_compile ignores settled again (by rw [whole, finite])
    (Workflow.hasDisputedTime_toValue tidy) c .empty
  rw [whole] at typed
  exact raw.trans typed.symm

/-- A template with an answer to fill in, times and numbers as texts, and two policies as lists: the retry
    policy of its action and the rate limit of the workflow. -/
def listedTemplate : Value :=
  .obj [
    ("actions", .arr [.obj [("action_ref", .str "m2"), ("local_id", .str "a"),
      ("rate_limit", .obj [("requests_per_minute", .str "9")]),
      ("required_inputs", .obj [("to", .str "\x7b\x7bwho\x7d\x7d")]), ("retry", .arr [.int 5]),
      ("timeout_ms", .str " 5000 "), ("toolkit_slug", .str "mail")]]),
    ("policies", .obj [("rate_limit", .arr [.int 8]), ("timeout_ms", .int 700)]),
    ("triggers", .arr [.obj [("local_id", .str "t"), ("toolkit_slug", .str "mail"),
      ("trigger_ref", .str "m1")]]),
    ("version", .int 1), ("workflow_id", .str "w")]

theorem compile_agrees_with_compileDocument_listed :
    ∃ w, Workflow.ofValue listedTemplate = .ok w ∧
      (standard.compile listedTemplate draftContext).document.isSome ∧
      ∀ repair ∈ [RepairStrategy.none, .dropUnresolved],
        (compile ⟨repair, .standard⟩ listedTemplate draftContext).document
          = (compileDocument ⟨repair, .standard⟩ (w.withoutLists listedTemplate)
              draftContext).document := by
  have there : (Workflow.ofValue listedTemplate).toOption.map (fun w =>
      ((w.withoutLists listedTemplate).isFinite, w.hasDisputedTime listedTemplate))
        = some (true, false) := by
    decide +kernel
  obtain ⟨w, made, same⟩ := Option.map_eq_some_iff.mp there
  obtain ⟨finite, plain⟩ := Prod.mk.inj same
  refine ⟨w, eq_ok_of_toOption made, by decide +kernel, fun repair either => ?_⟩
  refine compile_agrees_with_compileDocument ⟨repair, .standard⟩ ?_ listedTemplate w draftContext
    (by decide +kernel) (eq_ok_of_toOption made) finite plain
  simp only [List.mem_cons, List.not_mem_nil, or_false] at either
  rcases either with rfl | rfl
  · exact RepairStrategy.none_ignoresReport
  · exact RepairStrategy.dropUnresolved_ignoresReport

/-- The retry policy that is a list is lost from the document and kept from the workflow. -/
theorem compile_drops_listed_retry :
    ∃ w, Workflow.ofValue listedTemplate = .ok w ∧
      (standard.compile listedTemplate draftContext).document.map (fun d => d.actions.map (·.retry))
        = some [none] ∧
      (standard.compileDocument w draftContext).document.map (fun d => d.actions.map (·.retry))
        = some [some ⟨5, Double.ofInt 2, 1000⟩] ∧
      (standard.compile listedTemplate draftContext).document
        ≠ (standard.compileDocument w draftContext).document := by
  have there : (Workflow.ofValue listedTemplate).toOption.map (fun w =>
      (standard.compileDocument w draftContext).document.map (fun d => d.actions.map (·.retry)))
        = some (some [some ⟨5, Double.ofInt 2, 1000⟩]) := by
    decide +kernel
  obtain ⟨w, made, kept⟩ := Option.map_eq_some_iff.mp there
  have lost : (standard.compile listedTemplate draftContext).document.map
      (fun d => d.actions.map (·.retry)) = some [none] := by
    decide +kernel
  refine ⟨w, eq_ok_of_toOption made, lost, kept, fun same => ?_⟩
  rw [same, kept] at lost
  cases lost

/-- A template of one action with the given time limit and retry policy, and with policies. -/
def limitedTemplate (timeout retry policies : Value) : Value :=
  .obj [
    ("actions", .arr [.obj [("action_ref", .str "m2"), ("local_id", .str "a"),
      ("required_inputs", .obj [("to", .str "me")]), ("retry", retry), ("timeout_ms", timeout),
      ("toolkit_slug", .str "mail")]]),
    ("policies", policies), ("triggers", .arr []), ("version", .int 1), ("workflow_id", .str "w")]

/-- What is made of a template the one way and the other, less the policies that are lists. -/
def bothWays (seen : Workflow → α) (template : Value) : Option (Option α × Option α) :=
  (Workflow.ofValue template).toOption.map fun w =>
    ((standard.compile template draftContext).document.map seen,
      (standard.compileDocument (w.withoutLists template) draftContext).document.map seen)

/-- Where the two ways part for other reasons: a text of the first or the last time that is clamped as a number,
    such a time in policies that are a list, and an infinite double, which is not written. -/
theorem bothWays_part :
    bothWays (·.actions.map (·.timeoutMs)) (limitedTemplate (.str "9223372036854775808") .null .null)
        = some (some [none], some [some 9223372036854775807]) ∧
      bothWays (·.actions.map (·.timeoutMs)) (limitedTemplate (.str "9223372036854776832") .null .null)
        = some (some [none], some [some 9223372036854775807]) ∧
      bothWays (·.policies.bind (·.timeoutMs))
          (limitedTemplate .null .null (.arr [.null, .int 9223372036854775808]))
        = some (some (some 9223372036854775808), some (some 9223372036854775807)) ∧
      bothWays (·.actions.map (·.retry))
          (limitedTemplate .null (.obj [("backoff_multiplier", .str "inf")]) .null)
        = some (some [none], none) := by
  refine ⟨?_, ?_, ?_, ?_⟩ <;> decide +kernel

end Materializer

end Flowgraph
