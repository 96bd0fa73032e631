import Flowgraph.Proofs.Idempotence
import Flowgraph.Proofs.Inputs
import Flowgraph.Proofs.Preparation
import Flowgraph.Proofs.Workflow.Straightening

/-! Failures stay where they are. What a trigger or action is compiled to depends on itself alone: not on its
    place in the list, and not on whether the others can be resolved. So it is the same to drop those that
    could not be resolved and to compile the template without them. -/

namespace Flowgraph

open Json Json.Record Placeholder PolicyNumbers

/-! ### Picking items -/

/-- The items whose flag is set. -/
def pick : List Bool → List α → List α
  | true :: keep, x :: xs => x :: pick keep xs
  | false :: keep, _ :: xs => pick keep xs
  | _, _ => []

theorem pick_map (keep : List Bool) (f : α → β) (xs : List α) :
    pick keep (xs.map f) = (pick keep xs).map f := by
  fun_induction pick keep xs with
  | case1 keep x xs ih => rw [List.map_cons, pick, ih, List.map_cons]
  | case2 keep x xs ih => rw [List.map_cons, pick, ih]
  | case3 keep xs noMore _ =>
    rcases keep with _ | ⟨_ | _, keep⟩ <;> rcases xs with _ | ⟨x, xs⟩ <;> simp_all [pick]

theorem pick_map_self (p : α → Bool) (xs : List α) : pick (xs.map p) xs = xs.filter p := by
  induction xs with
  | nil => rfl
  | cons x xs ih => cases h : p x <;> simp [pick, h, ih]

theorem mem_of_mem_pick {keep : List Bool} {xs : List α} {x : α} (h : x ∈ pick keep xs) : x ∈ xs := by
  fun_induction pick keep xs with
  | case1 keep y ys ih =>
    rcases List.mem_cons.mp h with rfl | h
    · exact List.mem_cons_self
    · exact List.mem_cons_of_mem _ (ih h)
  | case2 keep y ys ih => exact List.mem_cons_of_mem _ (ih h)
  | case3 => cases h

theorem forall₂_pick {R : α → β → Prop} {xs : List α} {ys : List β} (h : List.Forall₂ R xs ys)
    (keep : List Bool) : List.Forall₂ R (pick keep xs) (pick keep ys) := by
  induction h generalizing keep with
  | nil => rcases keep with _ | ⟨_ | _, keep⟩ <;> exact .nil
  | cons here _ ih =>
    rcases keep with _ | ⟨_ | _, keep⟩
    · exact .nil
    · exact ih keep
    · exact .cons here (ih keep)

/-! ### Paths -/

section
variable (path path' : String)

namespace Context

theorem value_splitRequired_eq (inputs : Object) (s : SplitInputs) (param : String × ParamSpec) :
    (splitRequired inputs path s param).value = (splitRequired inputs path' s param).value := by
  rw [(splitRequired_spec inputs path s param).1, (splitRequired_spec inputs path' s param).1]

theorem value_splitFurther_eq (spec : Table ParamSpec) (required : Object) (input : String × Value) :
    (splitFurther spec path required input).value = (splitFurther spec path' required input).value := by
  rw [value_splitFurther, value_splitFurther]

theorem value_splitInputs_eq (a : Action) (spec : Table ParamSpec) :
    (splitInputs a spec path).value = (splitInputs a spec path').value := by
  simp only [splitInputs, Traced.value_bind, Traced.value_pure, Traced.value_foldlM,
    value_splitRequired_eq path path', value_splitFurther_eq path path', Coercion.value_coerceParams]

/-- The exec block of a trigger does not depend on where the trigger stands. -/
theorem value_triggerExec_eq (c : Context) (workflowId : String) (version : Version) (t : Trigger)
    (hit : CatalogHit) (id : String) : (c.triggerExec workflowId version path t hit id).value
      = (c.triggerExec workflowId version path' t hit id).value := by
  simp only [triggerExec, Traced.value_bind, Traced.value_pure, Coercion.value_coerceParams]

theorem value_actionExec_eq (c : Context) (a : Action) (hit : CatalogHit) (id : String) :
    (c.actionExec path a hit id).value = (c.actionExec path' a hit id).value := by
  simp only [actionExec, Traced.value_bind, Traced.value_pure, value_splitInputs_eq path path']

theorem value_resolveTrigger_eq (c : Context) (workflowId : String) (version : Version)
    (t : Trigger) : (c.resolveTrigger workflowId version path t).value
      = (c.resolveTrigger workflowId version path' t).value := by
  rw [resolveTrigger, resolveTrigger]
  cases c.index.find? .trigger t.toolkitSlug t.triggerRef with
  | none => rfl
  | some hit =>
    cases refused : refusedDelivery? t hit.entry with
    | some delivery => simp only [refused]; rfl
    | none =>
      simp only [refused, Traced.value_bind, value_connectionFor]
      cases c.connection? hit.provider t.connectionHint with
      | none => rfl
      | some id =>
        simp only [Traced.value_bind, Traced.value_pure]
        rw [value_triggerExec_eq path path']

theorem value_resolveAction_eq (c : Context) (a : Action) :
    (c.resolveAction path a).value = (c.resolveAction path' a).value := by
  rw [resolveAction, resolveAction]
  cases c.index.find? .action a.toolkitSlug a.actionRef with
  | none => rfl
  | some hit =>
    simp only [Traced.value_bind, value_connectionFor]
    cases c.connection? hit.provider a.connectionHint with
    | none => rfl
    | some id =>
      simp only [Traced.value_bind, Traced.value_pure]
      rw [value_actionExec_eq path path']

end Context

end

/-! ### Templates with fewer triggers and actions -/

namespace Json.Value

def pickItems (keep : List Bool) : Value → Value
  | .arr items => .arr (pick keep items)
  | v => v

/-- The document with only those triggers and actions whose flags are set. -/
def keeping (triggers actions : List Bool) (doc : Value) : Value :=
  (doc.updateMember "triggers" (pickItems triggers)).updateMember "actions" (pickItems actions)

/-- What becomes of the members of a document. -/
def pickMember (triggers actions : List Bool) (key : String) (v : Value) : Option Value :=
  if key = "triggers" then some (v.pickItems triggers)
  else if key = "actions" then some (v.pickItems actions)
  else some v

theorem onlyAt_pickMember (triggers actions : List Bool) :
    Object.OnlyAt (pickMember triggers actions) ["triggers", "actions"] := by
  intro key out v
  simp only [List.mem_cons, List.not_mem_nil, or_false, not_or] at out
  rw [pickMember, if_neg out.1, if_neg out.2]

variable {triggers actions : List Bool}

theorem keeping_obj (o : Object) :
    (Value.obj o).keeping triggers actions = .obj (o.rework (pickMember triggers actions)) := by
  rw [keeping, updateMember, updateMember, List.map_map, Object.rework, ← List.filterMap_eq_map]
  congr 2
  funext m
  by_cases first : m.1 = "triggers"
  · simp [pickMember, first]
  · by_cases second : m.1 = "actions" <;> simp [pickMember, first, second]

theorem pickItems_apply (answers : Object) (keep : List Bool) (v : Value) :
    (apply answers v).pickItems keep = apply answers (v.pickItems keep) := by
  cases v with
  | arr items => rw [apply, applyItems_eq_map, pickItems, pickItems, apply, applyItems_eq_map, pick_map]
  | null | bool _ | num _ | str _ | obj _ => rfl

/-- It is the same to fill in answers before and after items are picked. -/
theorem apply_keeping (answers : Object) (doc : Value) :
    apply answers (doc.keeping triggers actions) = (apply answers doc).keeping triggers actions := by
  have picked (keep : List Bool) (u : Value) :
      apply answers (u.pickItems keep) = (apply answers u).pickItems keep :=
    (pickItems_apply answers keep u).symm
  rw [keeping, apply_updateMember (picked actions), apply_updateMember (picked triggers)]
  rfl

theorem pickItems_mapItems (f : Value → Value) (keep : List Bool) (v : Value) :
    (v.mapItems f).pickItems keep = (v.pickItems keep).mapItems f := by
  cases v with
  | arr items => rw [mapItems, pickItems, pick_map]; rfl
  | null | bool _ | num _ | str _ | obj _ => rfl

theorem canonical_pickItems {v : Value} (canonical : v.canonical = v) (keep : List Bool) :
    (v.pickItems keep).canonical = v.pickItems keep := by
  cases v with
  | arr items =>
    rw [pickItems, Value.canonical, canonicalItems_eq_map]
    refine congrArg Value.arr (map_eq_self fun u mem => ?_)
    exact canonical_of_mem canonical (mem_of_mem_pick mem)
  | null | bool _ | num _ | str _ | obj _ => exact canonical

theorem canonical_keeping {v : Value} (canonical : v.canonical = v) :
    (v.keeping triggers actions).canonical = v.keeping triggers actions :=
  canonical_updateMember (canonical_updateMember canonical fun _ same => canonical_pickItems same triggers)
    fun _ same => canonical_pickItems same actions

/-- It is the same to straighten numbers before and after items are picked. -/
theorem straightened_keeping (doc : Value) :
    straightened (doc.keeping triggers actions) = (straightened doc).keeping triggers actions := by
  have picked (u : Value) : straightActions (u.pickItems actions) = (straightActions u).pickItems actions :=
    (pickItems_mapItems _ actions u).symm
  simp only [straightened, keeping]
  rw [updateMember_updateMember, updateMember_comm (by decide : "triggers" ≠ "actions"),
    updateMember_comm (by decide : "triggers" ≠ "policies"),
    updateMember_comm (by decide : "triggers" ≠ "flow_control"),
    updateMember_comm (by decide : "triggers" ≠ "actions"),
    ← updateMember_comm (by decide : "actions" ≠ "flow_control"),
    ← updateMember_comm (by decide : "actions" ≠ "policies"), updateMember_updateMember]
  simp only [picked]

/-- The items of a list; other values have none. -/
def items : Value → List Value
  | .arr items => items
  | _ => []

theorem itemsAt_eq (v : Value) (key : String) :
    v.itemsAt key = (v.member? key).elim [] Value.items := by
  rw [itemsAt]
  cases v.member? key with
  | none => rfl
  | some u => cases u <;> rfl

theorem isNull_pickItems (keep : List Bool) (v : Value) : (v.pickItems keep).isNull = v.isNull := by
  cases v <;> rfl

/-- No list gains an item. -/
theorem mem_of_mem_pickItems {keep : List Bool} {v item : Value}
    (mem : item ∈ (v.pickItems keep).items) : item ∈ v.items := by
  cases v with
  | arr vs => exact mem_of_mem_pick mem
  | null | bool _ | num _ | str _ | obj _ => exact mem

end Json.Value

theorem Path.isPresent_obj {o : Object} {name : String} (plain : segments name = [name])
    (ne : name ≠ "") : isPresent (.obj o) name = (o.member? name).any fun v => !v.isNull := by
  rw [isPresent, get?, if_neg ne, plain, walk?, child?]
  cases o.member? name <;> rfl

theorem entitiesOf_eq (doc : Value) (list : String) :
    entitiesOf doc list = (doc.itemsAt list).zipIdx.map fun x => (indexed list x.2, x.1) := by
  rw [entitiesOf, Value.itemsAt]
  cases doc.member? list with
  | none => rfl
  | some v => cases v <;> rfl

/-- What holds of all triggers and actions of a document, it holds of the items of the two lists. -/
theorem forall_entities {doc : Value} {P : Value → Bool} :
    (entities doc).all (fun e => P e.2) = true
      ↔ ∀ list ∈ entityLists, ∀ item ∈ doc.itemsAt list, P item = true := by
  rw [entities, List.all_flatMap, List.all_eq_true]
  refine forall₂_congr fun list _ => ?_
  rw [entitiesOf_eq, List.all_map, List.all_eq_true]
  exact forall_mem_zipIdx_fst (P := fun item => P item = true)

namespace Workflow

variable {triggers actions : List Bool} {o : Object}

/-- The workflow of a document with fewer triggers and actions. -/
theorem ofValue_keeping {w : Workflow} (sorted : o.Sorted)
    (read : Workflow.ofValue (.obj o) = .ok w) :
    Workflow.ofValue ((Value.obj o).keeping triggers actions)
      = .ok { w with triggers := pick triggers w.triggers, actions := pick actions w.actions } := by
  obtain ⟨ms, same, parts⟩ := readFrom_of_ofValue read
  cases same
  obtain ⟨items, there, each⟩ := parts.triggers
  obtain ⟨items', there', each'⟩ := parts.actions
  have under : (o.rework (Value.pickMember triggers actions)).under ["triggers"]
      = [.arr (pick triggers items)] := by
    rw [Object.under_rework, sorted.under, there]
    rfl
  have under' : (o.rework (Value.pickMember triggers actions)).under ["actions"]
      = [.arr (pick actions items')] := by
    rw [Object.under_rework, sorted.under, there']
    rfl
  have run : Decoder.list Trigger.codec.decode ⟨.value, 1⟩ (Value.arr (pick triggers items)).toTree
      = .ok (pick triggers w.triggers) :=
    (Decoder.list_eq_ok (by decide)).mpr ⟨_, rfl, forall₂_pick each triggers⟩
  have run' : Decoder.list Action.codec.decode ⟨.value, 1⟩ (Value.arr (pick actions items')).toTree
      = .ok (pick actions w.actions) :=
    (Decoder.list_eq_ok (by decide)).mpr ⟨_, rfl, forall₂_pick each' actions⟩
  have alike := (Value.onlyAt_pickMember triggers actions).agreeOutside o
  rw [Value.keeping_obj]
  refine Record.decode_carried (by decide) read fun s place known => ?_
  have here : s.place = ⟨.value, 1⟩ := place
  rw [← here] at run run'
  refine .seq (.seq (.seq (.seq (.seq (.seq (.map (.kept_field alike (by decide)) ?_)
    (.kept_field alike (by decide))) (.given_field under run)) (.given_field under' run'))
    (.kept_maybe alike (by decide))) (.kept_maybe alike (by decide)))
    (.kept_rest alike (by rw [place]; decide) (by rw [known]; decide))
  rintro _ _ rfl _ _ rfl _ _ rfl _ _ rfl _ _ rfl _ _ rfl _ _ rfl rfl
  rfl

end Workflow

namespace Materializer

variable {triggers actions : List Bool} {template : Value}

/-- A template with fewer triggers and actions is prepared as before. -/
theorem prepare_keeping (canonical : template.canonical = template) (answers : Object) :
    (prepare (template.keeping triggers actions) answers).value
      = (prepare template answers).value.keeping triggers actions := by
  rw [value_prepare (Value.canonical_keeping canonical), value_prepare canonical, Value.apply_keeping,
    Value.straightened_keeping]

/-- The workflow of a template with fewer triggers and actions. -/
theorem read_keeping (canonical : template.canonical = template) {answers : Object} {w : Workflow}
    (read : Workflow.ofValue (prepare template answers).value = .ok w) :
    Workflow.ofValue (prepare (template.keeping triggers actions) answers).value
      = .ok { w with triggers := pick triggers w.triggers, actions := pick actions w.actions } := by
  have prepared := canonical_prepare canonical answers
  obtain ⟨ms, same, -⟩ := Workflow.readFrom_of_ofValue read
  rw [same] at read prepared
  rw [prepare_keeping canonical, same]
  exact Workflow.ofValue_keeping (Object.sorted_of_canonical prepared) read

/-- A template stays valid where a member is not made `null` and new triggers and actions have a local id. -/
theorem validate_updateMember {key : String} {f : Value → Value}
    (null : ∀ v, template.member? key = some v → (f v).isNull = v.isNull)
    (named : key ∈ entityLists → ∀ v, template.member? key = some v → ∀ item ∈ (f v).items,
      item ∈ v.items ∨ Path.isPresent item "local_id" = true)
    (valid : (validate template).value = true) :
    (validate (template.updateMember key f)).value = true := by
  cases template with
  | obj o =>
    rw [value_validate, Bool.and_eq_true, List.all_eq_true,
      forall_entities (P := fun item => Path.isPresent item "local_id")] at valid ⊢
    obtain ⟨required, before⟩ := valid
    constructor
    · intro field mem
      have plain : ∀ f ∈ requiredFields, Path.segments f = [f] ∧ f ≠ "" := by decide
      have present := required field mem
      have updated := Value.member?_updateMember key f (.obj o) field
      rw [Path.isPresent_obj (plain field mem).1 (plain field mem).2] at present
      rw [Value.updateMember, Path.isPresent_obj (plain field mem).1 (plain field mem).2]
      rw [Value.updateMember, Value.member?, Value.member?] at updated
      rw [updated]
      split
      · rename_i here
        subst here
        cases there : Object.member? o field with
        | none => simp [there] at present
        | some v => simpa [there, null v there] using present
      · exact present
    · intro list mem item there
      rw [Value.itemsAt_eq, Value.member?_updateMember] at there
      have old := before list mem item
      rw [Value.itemsAt_eq] at old
      split at there
      · rename_i here
        subst here
        cases found : (Value.obj o).member? list with
        | none => simp [found] at there
        | some v =>
          rw [found] at there old
          rcases named mem v found item there with kept | new
          · exact old kept
          · exact new
      · exact old there
  | null | bool _ | num _ | str _ | arr _ => exact valid

/-- A template with fewer triggers and actions is as valid as before. -/
theorem validate_keeping (valid : (validate template).value = true) :
    (validate (template.keeping triggers actions)).value = true := by
  refine validate_updateMember (fun v _ => v.isNull_pickItems actions) ?_
    (validate_updateMember (fun v _ => v.isNull_pickItems triggers) ?_ valid)
  · exact fun _ v _ item mem => .inl (Value.mem_of_mem_pickItems mem)
  · exact fun _ v _ item mem => .inl (Value.mem_of_mem_pickItems mem)

end Materializer

/-! ### Who can be resolved -/

namespace Context

variable (c : Context)

/-- What a workflow becomes, wherever its triggers and actions stand. -/
theorem value_resolve_eq (w : Workflow) :
    (c.resolve w).value = c.injectDefaults { w with
      triggers := w.triggers.map fun t => (c.resolveTrigger w.id w.version "triggers" t).value
      actions := w.actions.map fun a => (c.resolveAction "actions" a).value } := by
  rw [value_resolve, ← map_zipIdx_fst (fun t => (c.resolveTrigger _ _ _ t).value) w.triggers,
    ← map_zipIdx_fst (fun a => (c.resolveAction _ a).value) w.actions]
  congr 2
  · exact List.map_congr_left fun x _ => value_resolveTrigger_eq ..
  · exact List.map_congr_left fun x _ => value_resolveAction_eq ..

theorem isSome_exec_resolveTrigger (workflowId : String) (version : Version) (path : String)
    {t : Trigger} (bare : t.exec = none) :
    (c.resolveTrigger workflowId version path t).value.exec.isSome ↔ t.Resolvable c := by
  rcases c.resolveTrigger_cases workflowId version path t with
    ⟨failed, same⟩ | ⟨hit, id, stands, connects, made⟩
  · simp [same, bare, failed]
  · simp only [made, Option.isSome_some, true_iff]
    exact ⟨hit, id, stands, connects⟩

theorem isSome_exec_resolveAction (path : String) {a : Action} (bare : a.exec = none) :
    (c.resolveAction path a).value.exec.isSome ↔ a.Resolvable c := by
  rcases c.resolveAction_cases path a with ⟨failed, same⟩ | ⟨hit, id, stands, connects, made⟩
  · simp [same, bare, failed]
  · simp only [made, Option.isSome_some, true_iff]
    exact ⟨hit, id, stands, connects⟩

end Context

instance (c : Context) (t : Trigger) : Decidable (t.Resolvable c) :=
  decidable_of_iff
    ((c.resolveTrigger "" (.flag true) "" { t with exec := none }).value.exec.isSome = true) <| by
    rw [Context.isSome_exec_resolveTrigger c "" (.flag true) "" rfl]
    exact ⟨fun ⟨hit, id, stands, connects⟩ => ⟨hit, id, ⟨stands.found, stands.delivers⟩, connects⟩,
      fun ⟨hit, id, stands, connects⟩ => ⟨hit, id, ⟨stands.found, stands.delivers⟩, connects⟩⟩

instance (c : Context) (a : Action) : Decidable (a.Resolvable c) :=
  decidable_of_iff ((c.resolveAction "" { a with exec := none }).value.exec.isSome = true) <| by
    rw [Context.isSome_exec_resolveAction c "" rfl]
    exact ⟨fun ⟨hit, id, stands, connects⟩ => ⟨hit, id, ⟨stands.found⟩, connects⟩,
      fun ⟨hit, id, stands, connects⟩ => ⟨hit, id, ⟨stands.found⟩, connects⟩⟩

/-- The part of a workflow that has exec blocks. -/
def Workflow.equipped (w : Workflow) : Workflow :=
  { w with
    triggers := w.triggers.filter (·.exec.isSome)
    actions := w.actions.filter (·.exec.isSome) }

theorem Workflow.missingExec_equipped (w : Workflow) : w.equipped.missingExec = [] := by
  refine missingExec_eq_nil.mpr ⟨fun t mem => ?_, fun a mem => ?_⟩
  · exact (List.mem_filter.mp mem).2
  · exact (List.mem_filter.mp mem).2

/-- Repairs that drop every trigger and action without an exec block, and nothing else. -/
def RepairStrategy.Drops (repair : RepairStrategy) : Prop :=
  ∀ w log, (repair w log).1 = w.equipped

theorem RepairStrategy.drops_dropUnresolved : dropUnresolved.Drops := fun _ _ => rfl

/-- To drop what could not be resolved is to resolve only what can be. -/
theorem Context.equipped_resolve (c : Context) {w : Workflow}
    (bareTriggers : ∀ t ∈ w.triggers, t.exec = none) (bareActions : ∀ a ∈ w.actions, a.exec = none) :
    (c.resolve w).value.equipped = (c.resolve { w with
      triggers := w.triggers.filter (·.Resolvable c)
      actions := w.actions.filter (·.Resolvable c) }).value := by
  have triggers : (w.triggers.map fun t => (c.resolveTrigger w.id w.version "triggers" t).value).filter
        (·.exec.isSome)
      = (w.triggers.filter (·.Resolvable c)).map fun t =>
          (c.resolveTrigger w.id w.version "triggers" t).value := by
    rw [List.filter_map]
    refine congrArg _ (List.filter_congr fun t mem => ?_)
    rw [Function.comp_apply, Bool.eq_iff_iff, decide_eq_true_iff]
    exact c.isSome_exec_resolveTrigger _ _ _ (bareTriggers t mem)
  have actions : (w.actions.map fun a => (c.resolveAction "actions" a).value).filter (·.exec.isSome)
      = (w.actions.filter (·.Resolvable c)).map fun a => (c.resolveAction "actions" a).value := by
    rw [List.filter_map]
    refine congrArg _ (List.filter_congr fun a mem => ?_)
    rw [Function.comp_apply, Bool.eq_iff_iff, decide_eq_true_iff]
    exact c.isSome_exec_resolveAction _ (bareActions a mem)
  rw [c.value_resolve_eq, c.value_resolve_eq, Workflow.equipped, triggers_injectDefaults,
    actions_injectDefaults, triggers, actions]
  simp only [injectDefaults]
  split <;> rfl

namespace Materializer

/-- With everything dropped that has no exec block, there is always a document. -/
theorem document_finish_of_drops {repair : RepairStrategy} (drops : repair.Drops)
    (scanner : SecretScanner) (w : Workflow) (log : Diagnostics) :
    (finish ⟨repair, scanner⟩ w log).document = some w.equipped := by
  simp only [finish, drops w, missingExecErrors, Workflow.missingExec_equipped, List.map_nil]

/-- A template whose triggers and actions come without exec blocks is compiled, what could not be resolved being
    dropped, to the same executable as the template that lacks these from the start. -/
theorem compile_contains_failures (repair : RepairStrategy) (scanner scanner' : SecretScanner)
    (c : Context) (template : Value) (w : Workflow) (drops : repair.Drops)
    (canonical : template.canonical = template) (valid : (validate template).value = true)
    (read : Workflow.ofValue (prepare template c.answers).value = .ok w)
    (bareTriggers : ∀ t ∈ w.triggers, t.exec = none)
    (bareActions : ∀ a ∈ w.actions, a.exec = none) :
    ∃ d, (compile ⟨repair, scanner⟩ template c).document = some d ∧
      (compile ⟨.none, scanner'⟩ (template.keeping (w.triggers.map (·.Resolvable c))
        (w.actions.map (·.Resolvable c))) c).document = some d := by
  refine ⟨(c.resolve w).value.equipped, ?_, ?_⟩
  · rw [compile_of_read _ valid read]
    exact document_finish_of_drops drops ..
  · rw [compile_of_read _ (validate_keeping valid) (read_keeping canonical read),
      (finish_none ..).2, pick_map_self, pick_map_self, ← c.equipped_resolve bareTriggers bareActions,
      missingExecErrors, Workflow.missingExec_equipped]
    rfl

/-- Of the three triggers of the template the last is left, of the two actions the second. -/
theorem compile_contains_failures_office :
    ∃ d, (compile ⟨.dropUnresolved, .standard⟩ officeTemplate.canonical officeContext).document
        = some d ∧
      d.triggers.map (·.localId) = ["t3"] ∧ d.actions.map (·.localId) = ["a2"] ∧
      (standard.compile (officeTemplate.canonical.keeping [false, false, true] [false, true])
        officeContext).document = some d := by
  have there : (Workflow.ofValue (prepare officeTemplate.canonical officeContext.answers).value).toOption.map
      (fun w => (w.triggers.all (·.exec.isNone), w.actions.all (·.exec.isNone),
        w.triggers.map fun t => decide (t.Resolvable officeContext),
        w.actions.map fun a => decide (a.Resolvable officeContext)))
        = some (true, true, [false, false, true], [false, true]) := by
    decide +kernel
  obtain ⟨w, made, same⟩ := Option.map_eq_some_iff.mp there
  simp only [Prod.mk.injEq, List.all_eq_true, Option.isNone_iff_eq_none] at same
  obtain ⟨bareTriggers, bareActions, triggers, actions⟩ := same
  obtain ⟨d, dropped, kept⟩ := compile_contains_failures .dropUnresolved .standard .standard
    officeContext officeTemplate.canonical w RepairStrategy.drops_dropUnresolved
    (Value.canonical_canonical _) (by decide +kernel) (eq_ok_of_toOption made) bareTriggers bareActions
  have left : (compile ⟨.dropUnresolved, .standard⟩ officeTemplate.canonical officeContext).document.map
      (fun d => (d.triggers.map (·.localId), d.actions.map (·.localId))) = some (["t3"], ["a2"]) := by
    decide +kernel
  rw [dropped, Option.map_some, Option.some_inj, Prod.mk.injEq] at left
  rw [triggers, actions] at kept
  exact ⟨d, dropped, left.1, left.2, kept⟩

end Materializer

end Flowgraph
