import Flowgraph.Proofs.HandOver
import Flowgraph.Proofs.Json.Canonical

/-! The normal form of workflow documents. Whatever is read as a workflow is canonical, so to write it and
    to read it again gives it back, and writing what was read brings a document into a form that it keeps. -/

namespace Flowgraph

open Json Json.Record

/-- The option stays as it is if what is in it does. -/
theorem option_map_eq_self {f : α → α} {x : Option α} (h : ∀ a, x = some a → f a = a) :
    x.map f = x := by
  cases x with
  | none => rfl
  | some a => rw [Option.map_some, h a rfl]

/-! ### Triggers and actions -/

theorem TriggerExec.yields_canonical :
    TriggerExec.codec.decode.Yields fun e => e.canonical = e := by
  refine Record.decode_yields fun scope => .seq (.seq (.seq (.seq (.map ?_) .any) (.field .object))
    .any) .any
  rintro _ provider - slug - configuration same _ - _ -
  rw [canonical, same]

theorem Trigger.yields_canonical : Trigger.codec.decode.Yields fun t => t.canonical = t := by
  refine Record.decode_yields fun scope => .seq (.seq (.seq (.seq (.seq (.seq (.seq (.seq (.seq (.seq
    (.map ?_) .any) .any) .any) (.defaulted .object rfl)) .any) .any) (.maybe .object)) .any)
    (.maybe TriggerExec.yields_canonical)) .rest
  rintro _ localId - _ - _ - _ - configuration settled _ - _ - schedule timed _ - exec run extra more
  rw [canonical]
  simp only [settled, more, option_map_eq_self timed, option_map_eq_self run]

theorem ActionExec.yields_canonical :
    ActionExec.codec.decode.Yields fun e => e.canonical = e := by
  refine Record.decode_yields fun scope => .seq (.seq (.seq (.seq (.seq (.seq (.seq (.map ?_) .any)
    .any) (.field .object)) (.field .object)) .any) .any) .any
  rintro _ provider - _ - _ - required first optional second _ - _ - _ -
  rw [canonical]
  simp only [first, second]

theorem Action.yields_canonical : Action.codec.decode.Yields fun a => a.canonical = a := by
  refine Record.decode_yields fun scope => .seq (.seq (.seq (.seq (.seq (.seq (.seq (.seq (.seq (.seq
    (.seq (.seq (.seq (.map ?_) .any) .any) (.defaulted .object rfl)) (.defaulted .object rfl))
    .any) .any) .any) .any) .any) .any) .any) (.maybe ActionExec.yields_canonical)) .rest
  rintro _ localId - _ - _ - required first optional second _ - _ - _ - _ - _ - _ - _ - exec run extra more
  rw [canonical]
  simp only [first, second, more, option_map_eq_self run]

/-! ### Control flow -/

theorem ConditionBranch.yields_canonical :
    ConditionBranch.codec.decode.Yields fun b => b.canonical = b := by
  refine Record.decode_yields fun scope => .seq (.seq (.map ?_) (.defaulted .value rfl)) .any
  rintro _ name - expr same _ -
  rw [canonical, same]

theorem Conditional.yields_canonical :
    Conditional.codec.decode.Yields fun c => c.canonical = c := by
  refine Record.decode_yields fun scope => .seq (.seq (.seq (.map ?_) .any)
    (.defaulted (.list ConditionBranch.yields_canonical) (by simp))) .any
  rintro _ localId - _ - branches each _ -
  rw [canonical, map_eq_self each]

theorem WhileLoop.yields_canonical :
    WhileLoop.codec.decode.Yields fun l => l.condition.canonical = l.condition := by
  refine Record.decode_yields fun scope => .seq (.seq (.seq (.seq (.map ?_) .any)
    (.defaulted .value rfl)) .any) .any
  rintro _ localId - _ - condition same _ - _ -
  exact same

theorem ForeachLoop.yields_canonical :
    ForeachLoop.codec.decode.Yields fun l => l.sourceArrayExpr.canonical = l.sourceArrayExpr := by
  refine Record.decode_yields fun scope => .seq (.seq (.seq (.seq (.seq (.seq (.map ?_) .any)
    (.defaulted .value rfl)) .any) .any) .any) .any
  rintro _ localId - _ - source same _ - _ - _ - _ -
  exact same

theorem LoopBlock.canonical_of_ofKind {kind body : Value} {l : LoopBlock}
    (h : LoopBlock.ofKind kind body = .ok l) : l.canonical = l := by
  cases kind with
  | str name =>
    obtain ⟨isWhile, -, h⟩ := bind_eq_ok.mp h
    split at h
    · obtain ⟨loop, read, rfl⟩ := map_eq_ok.mp h
      rw [canonical, WhileLoop.yields_canonical _ _ _ read]
    · obtain ⟨loop, read, rfl⟩ := map_eq_ok.mp h
      rw [canonical, ForeachLoop.yields_canonical _ _ _ read]
  | null | bool _ | num _ | arr _ | obj _ => cases h

theorem LoopBlock.yields_canonical : LoopBlock.codec.decode.Yields fun l => l.canonical = l := by
  intro p t l h
  obtain ⟨v, -, h⟩ := bind_eq_ok.mp h
  unfold LoopBlock.ofValue at h
  split at h
  · split at h
    · exact canonical_of_ofKind h
    · cases h
  · exact canonical_of_ofKind h
  · cases h
  · cases h

theorem Route.yields_canonical : Route.codec.decode.Yields fun r => r.canonical = r := by
  refine Record.decode_yields fun scope => .seq (.seq (.seq (.seq (.map ?_) .any) .any)
    .maybe_value) .any
  rintro _ source - _ - _ - condition solid _ -
  rw [canonical]
  cases condition with
  | none => rfl
  | some v =>
    obtain ⟨same, there⟩ := solid v rfl
    simp [Option.filter_some, Value.isNull_eq_false.mpr there, same]

theorem FlowControl.yields_canonical :
    FlowControl.codec.decode.Yields fun f => f.canonical = f := by
  refine Record.decode_yields fun scope => .seq (.seq (.seq (.map
    fun i conditions read => ?_) .any) (.unlessEmpty LoopBlock.yields_canonical))
    (.unlessEmpty Route.yields_canonical)
  have first := Gives.unlessEmpty Conditional.yields_canonical i conditions read
  rintro parallels - loops second routes third
  rw [canonical]
  simp only [map_eq_self first, map_eq_self second, map_eq_self third]

/-! ### Workflows -/

namespace Workflow

theorem yields_canonical : Workflow.codec.decode.Yields fun w => w.canonical = w := by
  refine Record.decode_yields fun scope => .seq (.seq (.seq (.seq (.seq (.seq (.map ?_) .any)
    (.field (.list Trigger.yields_canonical))) (.field (.list Action.yields_canonical)))
    (.maybe FlowControl.yields_canonical)) .any) .rest
  rintro _ id - version - triggers first actions second flow third policies - extra more
  rw [canonical]
  simp only [map_eq_self first, map_eq_self second, option_map_eq_self third, more]

/-- A workflow that was read is canonical. -/
theorem canonical_of_ofValue {v : Value} {w : Workflow} (h : Workflow.ofValue v = .ok w) :
    w.canonical = w := yields_canonical _ _ _ h

/-- The value that a document is written as once it has been read. -/
def normalize (v : Value) : Except DecodeError Value := (Workflow.ofValue v).map toValue

/-- To write a workflow that was read and to read it again gives the same workflow just if every double in
    it is finite. The value it is written as is then a normal form of the document. -/
theorem ofValue_toValue_of_read (v : Value) (w : Workflow) (read : Workflow.ofValue v = .ok w) :
    (Workflow.ofValue w.toValue = .ok w ↔ w.isFinite = true) ∧
      (w.isFinite = true → normalize v = .ok w.toValue ∧ normalize w.toValue = .ok w.toValue) := by
  have again {x : Workflow} : Workflow.ofValue w.toValue = .ok x ↔ w.isFinite = true ∧ w = x := by
    rw [ofValue_toValue (tidy_of_ofValue read), canonical_of_ofValue read]
  refine ⟨by simp [again], fun finite => ⟨?_, ?_⟩⟩
  · rw [normalize, read, Except.map]
  · rw [normalize, again.mpr ⟨finite, rfl⟩, Except.map]

/-- A document that is far from its normal form: exec blocks, a rate limit, a route and a loop given as
    lists, numbers given as texts, fields that are `null`, keys out of order and keys that are not known. -/
def looseDocument : Value :=
  .obj [("version", .num (.float (Double.ofInt 2))), ("workflow_id", .str "w"), ("owner", .str "me"),
    ("actions", .arr [.obj [("timeout_ms", .str " 5000 "), ("local_id", .str "a"), ("retry", .null),
      ("rate_limit", .arr [.str "7"]), ("note", .obj [("z", .int 1), ("b", .null)]),
      ("exec", .arr [.str "p", .str "s", .str "c", .obj [], .obj [],
        .obj [("backoff_multiplier", .str "1.5")], .int 9, .arr [.int 3]])]]),
    ("triggers", .arr [.obj [("local_id", .str "t"), ("exec", .arr [.str "p", .str "s",
      .obj [("k", .int 1)], .str "c"])]]),
    ("policies", .obj [("max_parallelism", .str "4"), ("timeout_ms", .null)]),
    ("flow_control", .obj [
      ("loops", .arr [.arr [.str "while", .str "again", .null, .bool true],
        .obj [("max_concurrency", .str "2"), ("kind", .str "foreach")]]),
      ("routes", .arr [.arr [.str "t", .str "a", .null, .null]])])]

theorem ofValue_toValue_of_read_loose :
    ∃ w, Workflow.ofValue looseDocument = .ok w ∧ w.isFinite = true ∧ w.toValue ≠ looseDocument ∧
      Workflow.ofValue w.toValue = .ok w ∧ normalize w.toValue = .ok w.toValue := by
  have there : (Workflow.ofValue looseDocument).toOption.map
      (fun w => (w.isFinite, decide (w.toValue = looseDocument))) = some (true, false) := by
    decide +kernel
  obtain ⟨w, made, same⟩ := Option.map_eq_some_iff.mp there
  obtain ⟨finite, other⟩ := Prod.mk.inj same
  have read := eq_ok_of_toOption made
  obtain ⟨again, settled⟩ := ofValue_toValue_of_read looseDocument w read
  exact ⟨w, read, finite, of_decide_eq_false other, again.mpr finite, (settled finite).2⟩

end Workflow

end Flowgraph
