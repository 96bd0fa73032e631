import Flowgraph.Proofs.Agreement
import Flowgraph.Proofs.ListedFlow

/-! Bad numbers do not withhold a document. Whatever stands where a template has a policy or a loop number, a
    template that compiled before compiles again, and what was refused counts as if it were not there. There are
    two exceptions: a retry policy or a rate limit with a number that is `null` passes as it is, and so does the
    number of a loop in a control flow that is a list, whatever it is. What passes so and cannot be read takes the
    document away. -/

namespace Flowgraph

open Json Placeholder PolicyNumbers

/-! ### Resolving -/

/-- Path and local id of what has no exec block depend on local ids and exec blocks alone. -/
theorem Workflow.missingExec_congr {w w' : Workflow}
    (triggers : w'.triggers.map (fun t => (t.localId, t.exec.isNone))
      = w.triggers.map fun t => (t.localId, t.exec.isNone))
    (actions : w'.actions.map (fun a => (a.localId, a.exec.isNone))
      = w.actions.map fun a => (a.localId, a.exec.isNone)) : w'.missingExec = w.missingExec := by
  have seen (w : Workflow) : w.missingExec
      = ((w.triggers.map fun t => (t.localId, t.exec.isNone)).zipIdx.filter (·.1.2)).map
          (fun x => (indexed "triggers" x.2, x.1.1))
        ++ ((w.actions.map fun a => (a.localId, a.exec.isNone)).zipIdx.filter (·.1.2)).map
          (fun x => (indexed "actions" x.2, x.1.1)) := by
    simp [missingExec, List.zipIdx_map, List.filter_map, Function.comp_def]
  rw [seen, seen, triggers, actions]

namespace Context

variable (c : Context)

/-- Whether an action gets an exec block does not depend on its policies. -/
theorem isNone_exec_resolveAction_bare (path : String) (a : Action) :
    ((c.resolveAction path a).value.localId, (c.resolveAction path a).value.exec.isNone)
      = ((c.resolveAction path a.bare).value.localId, (c.resolveAction path a.bare).value.exec.isNone) := by
  have alike : a.bare.Resolvable c ↔ a.Resolvable c := by
    constructor
    · rintro ⟨hit, id, stands, connects⟩
      exact ⟨hit, id, ⟨stands.found⟩, connects⟩
    · rintro ⟨hit, id, stands, connects⟩
      exact ⟨hit, id, ⟨stands.found⟩, connects⟩
  rcases c.resolveAction_cases path a with ⟨failed, same⟩ | ⟨hit, id, stands, connects, made⟩
  · rcases c.resolveAction_cases path a.bare with ⟨-, same'⟩ | ⟨hit, id, stands, connects, -⟩
    · rw [same, same']
      rfl
    · exact absurd (alike.mp ⟨hit, id, stands, connects⟩) failed
  · rcases c.resolveAction_cases path a.bare with ⟨failed, -⟩ | ⟨hit', id', -, -, made'⟩
    · exact absurd (alike.mpr ⟨hit, id, stands, connects⟩) failed
    · rw [made, made']
      rfl

theorem missingExec_resolve {w w' : Workflow} (same : w.AgreesOutside w') :
    (c.resolve w').value.missingExec = (c.resolve w).value.missingExec := by
  have seen (w : Workflow) : (c.resolve w).value.actions.map (fun a => (a.localId, a.exec.isNone))
      = (w.actions.map Action.bare).map fun a =>
          ((c.resolveAction "actions" a).value.localId, (c.resolveAction "actions" a).value.exec.isNone) := by
    rw [value_resolve_eq, actions_injectDefaults, List.map_map, List.map_map]
    exact List.map_congr_left fun a _ => c.isNone_exec_resolveAction_bare "actions" a
  refine Workflow.missingExec_congr ?_ ?_
  · rw [value_resolve_eq, value_resolve_eq, triggers_injectDefaults, triggers_injectDefaults]
    simp only [same.id, same.version, same.triggers]
  · rw [seen, seen, same.actions]

end Context

/-- Repairs after which it depends only on what lacked an exec block before whether something still does. -/
def RepairStrategy.IgnoresPolicies (repair : RepairStrategy) : Prop :=
  ∀ w w' log, w.missingExec = w'.missingExec →
    (repair w log).1.missingExec = [] → (repair w' log).1.missingExec = []

theorem RepairStrategy.none_ignoresPolicies : none.IgnoresPolicies :=
  fun _ _ _ same clean => same ▸ clean

/-! ### Templates with other numbers -/

theorem Json.Object.mapValues_without (f : Value → Value) (key : String) (o : Object) :
    (o.without key).mapValues f = (o.mapValues f).without key := by
  rw [mapValues, mapValues, without, without, List.filter_map]
  rfl

namespace Holder

/-- What is left of a holder when the answers are filled in and its numbers are straightened. -/
def settled (h : Holder) (answers o : Object) : Object :=
  (o.mapValues (apply answers)).rework h.settle

variable {h : Holder} {answers o o' : Object}

theorem settle_null (h : Holder) (key : String) : h.settle key .null = some .null := by
  have fields (fields : List NumericField) : settleFields fields key .null = some .null := by
    rw [settleFields]
    split <;> rfl
  have set (fs : List NumericField) : settleSet fs key .null = some .null := by
    rw [settleSet, fields fs]
    split_ifs <;> rfl
  cases h with
  | action _ | policies => exact set _
  | loop _ => exact fields _

theorem rework_apply_obj (h : Holder) (answers o : Object) :
    (apply answers (.obj o)).rework h.settle = .obj (h.settled answers o) := by
  rw [apply_obj]
  rfl

theorem agreeOutside_settled {keys : List String} (alike : o.AgreeOutside keys o') :
    (h.settled answers o).AgreeOutside keys (h.settled answers o') :=
  (alike.mapValues _).rework _

theorem settled_without (h : Holder) (answers : Object) (key : String) (o : Object) :
    h.settled answers (o.without key) = (h.settled answers o).without key := by
  rw [settled, settled, Object.without_rework, Object.mapValues_without]

section
variable (canonical : (Value.obj o).canonical = .obj o)
include canonical

theorem canonical_settled : (Value.obj (h.settled answers o)).canonical = .obj (h.settled answers o) := by
  have filled := canonical_filled canonical answers
  rw [← rework_apply_obj]
  cases h with
  | action _ | policies => exact Value.canonical_rework filled canonical_settleSet
  | loop _ => exact Value.canonical_rework filled fun _ _ _ => canonical_settleFields

theorem settles_settled : h.Settles (.obj (h.settled answers o)) := by
  have filled := canonical_filled canonical answers
  rw [← rework_apply_obj]
  cases h with
  | action _ =>
    rw [settle, ← value_coercePolicySet_eq filled "" plainNames_actionFields]
    exact settlesSet_coercePolicySet "" plainNames_actionFields _
  | policies =>
    rw [settle, ← value_coercePolicySet_eq filled "" plainNames_policiesFields]
    exact settlesSet_coercePolicySet "" plainNames_policiesFields _
  | loop _ =>
    rw [settle, ← value_coerceLoop_eq filled ""]
    exact (settles_foldlM_coerceOrDrop "" loopDefaultHint (by decide) _).1

theorem hasNull_settled :
    h.hasNull (.obj (h.settled answers o)) = h.leavesNull (apply answers (.obj o)) := by
  have filled := canonical_filled canonical answers
  rw [apply_obj] at filled ⊢
  cases h with
  | action _ | policies => exact hasNullWithin_rework filled _
  | loop _ => rfl

theorem member?_settled (key : String) :
    (h.settled answers o).member? key = ((apply answers (.obj o)).member? key).bind (h.settle key) := by
  have filled := canonical_filled canonical answers
  rw [apply_obj] at filled ⊢
  exact (Object.sorted_of_canonical filled).member?_rework h.settle key

end

end Holder

namespace Materializer

variable {template : Value} {h : Holder} {o o' : Object}

theorem validate_replace_held (found : h.find? template = some (.obj o)) (alike : o.AgreeOutside h.keys o')
    (valid : (validate template).value = true) :
    (validate (h.replace template (.obj o'))).value = true := by
  cases h with
  | action i =>
    have named : Path.isPresent (.obj o') "local_id" = true := by
      rw [value_validate, Bool.and_eq_true,
        forall_entities (P := fun item => Path.isPresent item "local_id")] at valid
      have old := valid.2 "actions" (by decide) _ (List.mem_of_getElem? found)
      have outside : o.AgreeOutside ("retry" :: "rate_limit" :: actionFields.map Prod.fst) o' := alike
      rw [Path.isPresent_obj (by decide) (by decide)] at old ⊢
      rw [outside.member?_eq (by decide), old]
    rw [Holder.replace]
    refine validate_updateMember (fun v _ => Value.isNull_setItem i _ v) (fun _ v _ item mem => ?_) valid
    rcases Value.mem_of_mem_setItem mem with old | rfl
    · exact .inl old
    · exact .inr named
  | policies =>
    rw [Holder.replace]
    refine validate_updateMember (fun v there => ?_) (fun listed => absurd listed (by decide)) valid
    cases there.symm.trans found
    rfl
  | loop i =>
    rw [Holder.replace]
    refine validate_updateMember (fun v _ => ?_) (fun listed => absurd listed (by decide)) valid
    cases v <;> rfl

/-- Other numbers leave a template as valid as before. -/
theorem validate_replace {s : Setting} (found : s.find? template = some (.obj o))
    (alike : o.AgreeOutside s.keys o') (valid : (validate template).value = true) :
    (validate (s.replace template (.obj o'))).value = true := by
  cases s with
  | held h => exact validate_replace_held found alike valid
  | listedLoop i =>
    rw [Setting.replace]
    refine validate_updateMember (fun v _ => ?_) (fun listed => absurd listed (by decide)) valid
    exact Value.isNull_updateItem ..

theorem validate_of_compile {m : Materializer} {c : Context}
    (compiled : (m.compile template c).document.isSome = true) : (validate template).value = true := by
  cases valid : (validate template).value with
  | true => rfl
  | false => simp [compile, valid] at compiled

theorem isSome_document_finish {m : Materializer} {w : Workflow} {log : Diagnostics} :
    (m.finish w log).document.isSome = true
      ↔ (m.repair w (log ++ m.scanner.scan w.toValue)).1.missingExec = [] := by
  simp only [finish]
  split
  · rename_i complete
    exact iff_of_true rfl (List.map_eq_nil_iff.mp complete)
  · rename_i incomplete
    exact iff_of_false (by simp) fun complete => incomplete (List.map_eq_nil_iff.mpr complete)

/-- A template that cannot be read gives no document, and it is reported that it does not fit. -/
theorem compile_of_unread {m : Materializer} {c : Context} (valid : (validate template).value = true)
    (unread : ∀ w, Workflow.ofValue (prepare template c.answers).value ≠ .ok w) :
    (m.compile template c).document = none ∧
      ∃ e ∈ (m.compile template c).diagnostics.errors, e.code = .internalError := by
  cases read : Workflow.ofValue (prepare template c.answers).value with
  | ok w => exact absurd read (unread w)
  | error cause => simp [compile, valid, read, Diagnostics.addError]

/-- Templates that are read alike once they are prepared compile to the same document. -/
theorem document_compile_congr {m : Materializer} (ignores : m.repair.IgnoresReport) {c : Context}
    {template' : Value} (valid : (validate template).value = true)
    (valid' : (validate template').value = true)
    (same : ∀ w, Workflow.ofValue (prepare template c.answers).value = .ok w ↔
      Workflow.ofValue (prepare template' c.answers).value = .ok w) :
    (m.compile template c).document = (m.compile template' c).document := by
  cases read : Workflow.ofValue (prepare template c.answers).value with
  | ok w =>
    rw [compile_of_read m valid read, compile_of_read m valid' ((same w).mp read)]
    exact document_finish_eq ignores ..
  | error cause =>
    have unread w : Workflow.ofValue (prepare template c.answers).value ≠ .ok w := by simp [read]
    rw [(compile_of_unread valid unread).1,
      (compile_of_unread valid' fun w read => unread w ((same w).mpr read)).1]

theorem find?_prepare_obj (canonical : template.canonical = template)
    (found : h.find? template = some (.obj o)) (answers : Object) :
    h.find? (prepare template answers).value = some (.obj (h.settled answers o)) := by
  rw [find?_prepare h canonical, found, Option.map_some, h.rework_apply_obj]

section
variable {answers : Object} {w : Workflow} (canonical : template.canonical = template)
  (canonical' : (Value.obj o').canonical = .obj o')
include canonical canonical'

theorem prepare_replace_obj (h : Holder) (answers : Object) :
    (prepare (h.replace template (.obj o')) answers).value
      = h.replace (prepare template answers).value (.obj (h.settled answers o')) := by
  rw [prepare_replace h canonical canonical', h.rework_apply_obj]

theorem prepare_replace_listedLoop (i : Nat) (answers : Object) :
    (prepare ((Setting.listedLoop i).replace template (.obj o')) answers).value
      = (Setting.listedLoop i).replace (prepare template answers).value (.obj (o'.mapValues (apply answers))) := by
  rw [Setting.prepare_replace_listedLoop answers canonical canonical', apply_obj]

section
variable (found : h.find? template = some (.obj o))
include found

theorem readsWith_prepare (alike : o.AgreeOutside h.keys o')
    (read : Workflow.ofValue (prepare template answers).value = .ok w) :
    h.ReadsWith (prepare template answers).value (.obj (h.settled answers o')) w :=
  Holder.readsWith (canonical_prepare canonical answers) (Holder.canonical_settled canonical') read
    (find?_prepare_obj canonical found answers) (Holder.agreeOutside_settled alike)
    (Holder.settles_settled canonical')

theorem ofValue_prepare_without_held {key : String} (mem : key ∈ h.keys)
    (void : (h.settled answers o').member? key = none ∨
      (h.settled answers o').member? key = some .null) :
    Workflow.ofValue (prepare (h.replace template (.obj o')) answers).value = .ok w ↔
      Workflow.ofValue (prepare (h.replace template (.obj (o'.without key))) answers).value = .ok w := by
  rw [prepare_replace_obj canonical canonical',
    prepare_replace_obj canonical (Object.canonical_without canonical' key), h.settled_without]
  rcases void with none | null
  · rw [Object.without_of_none none]
  · have there := find?_prepare_obj canonical found answers
    have settled : (Value.obj (h.settled answers o')).canonical = _ := Holder.canonical_settled canonical'
    have reads := Holder.reads_without settled mem null
    constructor
    · exact Holder.ofValue_replace_imp (canonical_prepare canonical answers) settled there
        fun part => (reads part).mpr
    · exact Holder.ofValue_replace_imp (canonical_prepare canonical answers)
        (Object.canonical_without settled key) there fun part => (reads part).mp

end

variable {s : Setting} (found : s.find? template = some (.obj o))
  (read : Workflow.ofValue (prepare template answers).value = .ok w)
include found read

/-- The prepared template with other numbers is read just if nothing there spoils it. -/
theorem ofValue_prepare_replace (alike : o.AgreeOutside s.keys o') :
    (s.spoils (apply answers (.obj o')) = false →
      ∃ w', Workflow.ofValue (prepare (s.replace template (.obj o')) answers).value = .ok w' ∧
        w.AgreesOutside w') ∧
    ∀ w', Workflow.ofValue (prepare (s.replace template (.obj o')) answers).value = .ok w' →
      s.spoils (apply answers (.obj o')) = false := by
  cases s with
  | held h =>
    have reads := readsWith_prepare canonical canonical' found alike read
    rw [Setting.replace, prepare_replace_obj canonical canonical', Setting.spoils,
      ← Holder.hasNull_settled canonical']
    exact ⟨reads.read, reads.solid⟩
  | listedLoop i =>
    have filled := canonical_filled canonical' answers
    have there := Setting.find?_prepare_listedLoop answers canonical found
    have prepared := canonical_prepare canonical answers
    rw [apply_obj] at filled there
    obtain ⟨l, reads, -⟩ := Setting.exists_reads_listedLoop there prepared read
    have readable := LoopBlock.exists_decode_iff (Holder.origin_place (.loop i))
      (Setting.canonical_of_find?_listedLoop prepared there) filled (alike.mapValues (apply answers)) reads
    rw [exists_readsMaybe_count (by decide)] at readable
    rw [prepare_replace_listedLoop canonical canonical', Setting.spoils, apply_obj, Bool.not_eq_false']
    simp only [Setting.ofValue_replace_listedLoop_iff there prepared read filled]
    constructor
    · intro clean
      obtain ⟨l', reads'⟩ := readable.mpr clean
      exact ⟨_, ⟨l', reads', rfl⟩, rfl, rfl, rfl, rfl⟩
    · rintro w' ⟨l', reads', -⟩
      exact readable.mp ⟨l', reads'⟩

/-- A setting that is refused or `null` is read as if it were not there. -/
theorem ofValue_prepare_without {key : String} (mem : key ∈ s.keys) {v : Value}
    (there : (apply answers (.obj o')).member? key = some v) (void : v = .null ∨ s.settle key v = none)
    (w' : Workflow) :
    Workflow.ofValue (prepare (s.replace template (.obj o')) answers).value = .ok w' ↔
      Workflow.ofValue (prepare (s.replace template (.obj (o'.without key))) answers).value = .ok w' := by
  cases s with
  | held h =>
    refine ofValue_prepare_without_held canonical canonical' found mem ?_
    rw [Holder.member?_settled canonical', there, Option.bind_some]
    rcases void with rfl | refused
    · exact .inr (h.settle_null key)
    · exact .inl refused
  | listedLoop i =>
    obtain rfl : v = .null := void.resolve_right (by simp [Setting.settle])
    have filled := canonical_filled canonical' answers
    have loop := Setting.find?_prepare_listedLoop answers canonical found
    have prepared := canonical_prepare canonical answers
    rw [apply_obj] at filled there loop
    have less := Object.canonical_without filled key
    rw [prepare_replace_listedLoop canonical canonical',
      prepare_replace_listedLoop canonical (Object.canonical_without canonical' key), Object.mapValues_without,
      Setting.ofValue_replace_listedLoop_iff loop prepared read filled,
      Setting.ofValue_replace_listedLoop_iff loop prepared read less]
    simp only [Holder.reads_without (h := .loop i) filled mem there]

end

/-- Whatever stands where a template that compiles has its policies and loop numbers, it compiles, unless what
    stands there spoils it: a number that is left `null` inside of a policy, or one that is none in a loop of a
    list. Then it is reported that the template does not fit. What is refused, or is `null`, counts as if it were
    not there. -/
theorem compile_tolerates_bad_numbers (m : Materializer) (report : m.repair.IgnoresReport)
    (policies : m.repair.IgnoresPolicies) (c : Context) (template : Value) (s : Setting) (o o' : Object)
    (canonical : template.canonical = template) (canonical' : (Value.obj o').canonical = .obj o')
    (found : s.find? template = some (.obj o)) (alike : o.AgreeOutside s.keys o')
    (compiled : (m.compile template c).document.isSome = true) :
    (s.spoils (apply c.answers (.obj o')) = false →
      (m.compile (s.replace template (.obj o')) c).document.isSome = true) ∧
    (s.spoils (apply c.answers (.obj o')) = true →
      (m.compile (s.replace template (.obj o')) c).document = none ∧
        ∃ e ∈ (m.compile (s.replace template (.obj o')) c).diagnostics.errors,
          e.code = .internalError) ∧
    ∀ key ∈ s.keys, ∀ v, (apply c.answers (.obj o')).member? key = some v →
      v = .null ∨ s.settle key v = none →
      (m.compile (s.replace template (.obj o')) c).document
        = (m.compile (s.replace template (.obj (o'.without key))) c).document := by
  have valid := validate_of_compile compiled
  have valid' := validate_replace found alike valid
  obtain ⟨d, made⟩ := Option.isSome_iff_exists.mp compiled
  obtain ⟨w, log, read, -⟩ := exists_of_compile_eq_some made
  obtain ⟨readable, solid⟩ := ofValue_prepare_replace canonical canonical' found read alike
  refine ⟨fun clean => ?_, fun spoilt => ?_, fun key mem v there void => ?_⟩
  · obtain ⟨w', read', agrees⟩ := readable clean
    rw [compile_of_read m valid read, isSome_document_finish] at compiled
    rw [compile_of_read m valid' read', isSome_document_finish]
    have complete := policies _ _ _ (c.missingExec_resolve agrees).symm compiled
    rwa [report] at complete
  · refine compile_of_unread valid' fun w' read' => ?_
    have clean := solid w' read'
    rw [spoilt] at clean
    cases clean
  · have alike' : o.AgreeOutside s.keys (o'.without key) :=
      alike.trans ((Object.agreeOutside_without key o').mono (by simpa using mem))
    exact document_compile_congr report valid' (validate_replace found alike' valid)
      (ofValue_prepare_without canonical canonical' found read mem there void)

/-- An action that can be resolved, with a retry policy. -/
def mailAction (retry : Value) : Object :=
  [("action_ref", .str "m2"), ("local_id", .str "a1"), ("required_inputs", .obj [("to", .str "x")]),
    ("retry", retry), ("toolkit_slug", .str "mail")]

def mailTemplate (retry : Value) : Value :=
  .obj [("actions", .arr [.obj (mailAction retry)]),
    ("triggers", .arr [.obj [("local_id", .str "t1"), ("toolkit_slug", .str "mail"),
      ("trigger_ref", .str "m1")]]), ("version", .int 1), ("workflow_id", .str "w")]

/-- A loop in a control flow that is a list, in front of the action. -/
def countingLoop (count : Value) : Object := [("kind", .str "while"), ("max_iterations", count)]

def countingTemplate (count : Value) : Value :=
  .obj [("actions", .arr [.obj (mailAction .null)]),
    ("flow_control", .arr [.arr [], .arr [], .arr [.obj (countingLoop count)]]),
    ("triggers", .arr [.obj [("local_id", .str "t1"), ("toolkit_slug", .str "mail"),
      ("trigger_ref", .str "m1")]]), ("version", .int 1), ("workflow_id", .str "w")]

/-- A number that is a text leaves the action as it is without a retry policy, and `null` takes the document
    away. In a loop of a list it is the other way round. -/
theorem compile_tolerates_bad_numbers_mail :
    (standard.compile (mailTemplate (.obj [("max_attempts", .str "many")])) officeContext).document.isSome
        = true ∧
      (standard.compile (mailTemplate (.obj [("max_attempts", .str "many")])) officeContext).document
        = (standard.compile ((Holder.action 0).replace (mailTemplate .null)
            (.obj ((mailAction .null).without "retry"))) officeContext).document ∧
      (standard.compile (mailTemplate (.obj [("max_attempts", .null)])) officeContext).document = none ∧
      (standard.compile (countingTemplate (.str "many")) officeContext).document = none ∧
      (standard.compile (countingTemplate .null) officeContext).document.isSome = true := by
  have tolerates (retry : Value)
      (canonical : (Value.obj (mailAction retry)).canonical = .obj (mailAction retry)) :=
    compile_tolerates_bad_numbers .standard RepairStrategy.none_ignoresReport
      RepairStrategy.none_ignoresPolicies officeContext (mailTemplate .null) (.held (.action 0)) (mailAction .null)
      (mailAction retry) (by decide +kernel) canonical rfl rfl (by decide +kernel)
  have text := tolerates (.obj [("max_attempts", .str "many")]) (by decide +kernel)
  have null := tolerates (.obj [("max_attempts", .null)]) (by decide +kernel)
  have counts (count : Value)
      (canonical : (Value.obj (countingLoop count)).canonical = .obj (countingLoop count)) :=
    compile_tolerates_bad_numbers .standard RepairStrategy.none_ignoresReport
      RepairStrategy.none_ignoresPolicies officeContext (countingTemplate (.int 5)) (.listedLoop 0)
      (countingLoop (.int 5)) (countingLoop count) (by decide +kernel) canonical rfl rfl (by decide +kernel)
  have word := counts (.str "many") (by decide +kernel)
  have none := counts .null (by decide +kernel)
  exact ⟨text.1 (by decide +kernel), text.2.2 "retry" (by decide) _ rfl (.inr (by decide +kernel)),
    (null.2.1 (by decide +kernel)).1, (word.2.1 (by decide +kernel)).1, none.1 (by decide +kernel)⟩

/-- A retry policy with a number that is `null` withholds the document that there is without the policy. -/
theorem compile_null_attempts_withholds :
    (standard.compile (mailTemplate .null) officeContext).document.isSome = true ∧
      (standard.compile (mailTemplate (.obj [("max_attempts", .null)])) officeContext).document.isSome
        = false ∧
      (standard.compile (mailTemplate (.obj [("max_attempts", .null)])) officeContext).diagnostics.errors.map
        (·.code) = [.internalError] := by
  decide +kernel

end Materializer

end Flowgraph
