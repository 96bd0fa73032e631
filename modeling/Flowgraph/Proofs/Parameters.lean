import Flowgraph.Proofs.Coercion
import Flowgraph.Proofs.Inputs
import Flowgraph.Proofs.Warnings

/-! Parameters in exec blocks. A parameter that the catalog declares has the form of its type there, or it is
    reported that it has not: of the inputs of actions this holds wherever they come from. The configuration
    of a trigger takes over the defaults of the catalog as they are, so it holds there of what the trigger
    gives itself, and of a default just if that has the form already. -/

namespace Flowgraph

open Json Context

/-! ### Vouching -/

/-- The value has the form of its type, or it is reported that it has not. -/
def Vouched (ds : List Diagnostic) (path : String) (p : ParamSpec) (v : Value) : Prop :=
  Coercion.coerce v p.type = .ok v ∨ ReportsUnfit ds path

theorem Vouched.mono {ds ds' : List Diagnostic} {path : String} {p : ParamSpec} {v : Value}
    (h : Vouched ds path p v) (sub : ds ⊆ ds') : Vouched ds' path p v := by
  rcases h with form | ⟨d, mem, unfit⟩
  · exact .inl form
  · exact .inr ⟨d, sub mem, unfit⟩

/-- What a parameter is made is vouched for by its own report. -/
theorem vouched_coerceParam (v : Value) (p : ParamSpec) (path : String) :
    Vouched (Coercion.coerceParam v p path).log.warnings path p (p.settle v) := by
  cases made : Coercion.coerce v p.type with
  | ok w =>
    have settled : p.settle v = w := by rw [ParamSpec.settle, made]; rfl
    rw [settled]
    exact .inl (Coercion.coerce_of_coerce made)
  | error e =>
    refine .inr ⟨⟨.paramCoercionFailed, path, e.message, some "The original value was kept"⟩, ?_, rfl, rfl⟩
    simp [Coercion.coerceParam, made]

/-- Every declared parameter in the object is vouched for, under its name behind `base`. -/
def AllVouched (spec : Table ParamSpec) (base : String) (o : Object) (ds : List Diagnostic) : Prop :=
  ∀ k p v, (k, p) ∈ spec → o.member? k = some v → Vouched ds (base ++ k) p v

section
variable {spec : Table ParamSpec} {base : String} {o : Object} {ds : List Diagnostic}

theorem allVouched_nil : AllVouched spec base [] ds := by
  intro k p v _ held
  cases held

theorem AllVouched.mono (h : AllVouched spec base o ds) {ds' : List Diagnostic} (sub : ds ⊆ ds') :
    AllVouched spec base o ds' :=
  fun k p v declared held => (h k p v declared held).mono sub

/-- A parameter is put in with its own report. -/
theorem AllVouched.put (h : AllVouched spec base o ds) {ds' : List Diagnostic} {name : String} {u : Value}
    (new : ∀ p, (name, p) ∈ spec → Vouched ds' (base ++ name) p u) :
    AllVouched spec base (o.put name u) (ds ++ ds') := by
  intro k p v declared held
  rw [Object.member?_put] at held
  split at held
  · rename_i same
    subst same
    cases held
    exact (new p declared).mono (List.subset_append_right ..)
  · exact h.mono (List.subset_append_left ..) k p v declared held

end

/-! ### Inputs of actions -/

theorem Json.Table.eq_of_mem {t : Table α} (distinct : (t.map Prod.fst).Nodup) {key : String} {a b : α}
    (here : (key, a) ∈ t) (there : (key, b) ∈ t) : a = b :=
  Option.some.inj ((entry?_of_mem distinct here).symm.trans (entry?_of_mem distinct there))

namespace Context

section
variable {spec : Table ParamSpec} (distinct : (spec.map Prod.fst).Nodup) {path : String}
include distinct

/-- One turn of the loop over the required parameters. -/
theorem allVouched_splitRequired {inputs : Object} {s : SplitInputs} {ds : List Diagnostic}
    {param : String × ParamSpec} (declared : param ∈ spec)
    (h : AllVouched spec (path ++ ".required_inputs.") s.required ds) :
    AllVouched spec (path ++ ".required_inputs.") (splitRequired inputs path s param).value.required
      (ds ++ (splitRequired inputs path s param).log.warnings) := by
  rw [(splitRequired_spec ..).1]
  cases found : source? inputs s.leftover param.1 param.2 with
  | none => exact h.mono (List.subset_append_left ..)
  | some v =>
    have report : (splitRequired inputs path s param).log.warnings
        = (Coercion.coerceParam v param.2 (path ++ ".required_inputs." ++ param.1)).log.warnings := by
      rw [source?] at found
      simp only [splitRequired, present_eq, found]
      simp
    rw [report]
    refine h.put fun p same => ?_
    cases Table.eq_of_mem distinct declared same
    exact vouched_coerceParam v param.2 _

/-- One turn of the loop over the other required inputs. -/
theorem allVouched_splitFurther {o : Object} {ds : List Diagnostic} {input : String × Value}
    (h : AllVouched spec (path ++ ".required_inputs.") o ds) :
    AllVouched spec (path ++ ".required_inputs.") (splitFurther spec path o input).value
      (ds ++ (splitFurther spec path o input).log.warnings) := by
  by_cases required : isRequired spec input.1
  · simpa [splitFurther, required] using h
  · have report : (splitFurther spec path o input).log.warnings = (Coercion.coerceDeclared input.2
        (Table.entry? spec input.1) (path ++ ".required_inputs." ++ input.1)).log.warnings := by
      simp [splitFurther, required]
    rw [value_splitFurther, if_neg required, report]
    refine h.put fun p declared => ?_
    rw [Table.entry?_of_mem distinct declared]
    exact vouched_coerceParam input.2 p _

theorem allVouched_coerceParams (o : Object) (path : String) :
    AllVouched spec (path ++ ".") (Coercion.coerceParams o spec path).value
      (Coercion.coerceParams o spec path).log.warnings := by
  intro k p v declared held
  rw [Coercion.value_coerceParams, Object.member?_mapKeyed fun name => settleAs (Table.entry? spec name)]
    at held
  obtain ⟨u, there, rfl⟩ := Option.map_eq_some_iff.mp held
  rw [Coercion.warnings_coerceParams, Table.entry?_of_mem distinct declared]
  refine (vouched_coerceParam u p (path ++ "." ++ k)).mono fun d mem => ?_
  refine List.mem_flatMap.mpr ⟨(k, u), Object.exists_mem_of_member? there, ?_⟩
  rw [Table.entry?_of_mem distinct declared]
  exact mem

/-- The declared inputs of an action are vouched for, wherever they come from. -/
theorem allVouched_splitInputs (a : Action) (path : String) :
    AllVouched spec (path ++ ".required_inputs.") (splitInputs a spec path).value.1
        (splitInputs a spec path).log.warnings ∧
      AllVouched spec (path ++ ".optional_inputs.") (splitInputs a spec path).value.2
        (splitInputs a spec path).log.warnings := by
  have start : AllVouched spec (path ++ ".required_inputs.") (SplitInputs.mk [] a.optionalInputs).required
      [] := allVouched_nil
  have declared := Traced.foldlM_keeps (splitRequired a.requiredInputs path)
    (fun s ds => AllVouched spec (path ++ ".required_inputs.") s.required ds)
    (spec.filter (·.2.required))
    (fun s ds param mem h => allVouched_splitRequired distinct (List.mem_of_mem_filter mem) h) start
  have further := Traced.foldlM_keeps (splitFurther spec path)
    (AllVouched spec (path ++ ".required_inputs.")) a.requiredInputs
    (fun o ds input _ h => allVouched_splitFurther distinct h) declared
  simp only [splitInputs, Traced.value_bind, Traced.value_pure, Traced.log_bind, Traced.log_pure,
    Diagnostics.warnings_append, Diagnostics.warnings_empty, List.append_nil]
  rw [List.nil_append] at declared further
  rw [← List.append_assoc]
  have base : path ++ ".optional_inputs" ++ "." = path ++ ".optional_inputs." := String.append_assoc ..
  refine ⟨further.mono (List.subset_append_left ..), ?_⟩
  rw [← base]
  exact (allVouched_coerceParams distinct _ _).mono (List.subset_append_right ..)

end

end Context

/-! ### Configurations of triggers -/

namespace Coercion

/-- One step of `withDefaults`. -/
def addDefault (params : Object) (e : String × ParamSpec) : Object :=
  match e.2.default with
  | some d => if Object.has params e.1 then params else Object.put e.1 d params
  | none => params

theorem withDefaults_eq (spec : Table ParamSpec) (params : Object) :
    withDefaults spec params = spec.foldl addDefault params := rfl

theorem member?_addDefault (params : Object) (e : String × ParamSpec) (k : String) :
    (addDefault params e).member? k
      = if k = e.1 then (params.member? k).or e.2.default else params.member? k := by
  rw [addDefault]
  cases e.2.default with
  | none => simp
  | some d =>
    by_cases there : Object.has params e.1
    · obtain ⟨v, found⟩ := Option.isSome_iff_exists.mp there
      by_cases same : k = e.1 <;> simp [there, same, found]
    · have found : params.member? e.1 = none := by simpa [Object.has] using there
      by_cases same : k = e.1 <;> simp [there, Object.member?_put, same, found]

/-- A default stands where there is nothing else, as it is. -/
theorem member?_withDefaults {spec : Table ParamSpec} (distinct : (spec.map Prod.fst).Nodup)
    (params : Object) (k : String) :
    (withDefaults spec params).member? k
      = (params.member? k).or ((Table.entry? spec k).bind (·.default)) := by
  rw [withDefaults_eq]
  induction spec generalizing params with
  | nil => exact (Option.or_none).symm
  | cons e spec ih =>
    obtain ⟨new, distinct⟩ := List.nodup_cons.mp distinct
    rw [List.foldl_cons, ih distinct, member?_addDefault, Table.entry?_cons]
    by_cases same : k = e.1
    · subst same
      simp [Table.entry?_eq_none new]
    · rw [if_neg same, if_neg same]

end Coercion

namespace EntryKind

/-- With this exec block, or without one. -/
def equip : (k : EntryKind) → k.Part → Option k.Exec → k.Part
  | .trigger => fun t exec => { t with exec := exec }
  | .action => fun a exec => { a with exec := exec }

abbrev StandsFor : (k : EntryKind) → Context → k.Part → CatalogHit → Prop
  | .trigger => Trigger.StandsFor
  | .action => Action.StandsFor

/-- What is in the given place gets an exec block of the entry that it stands for. -/
structure Equipped (k : EntryKind) (c : Context) (w : Workflow) (i : Nat) (x : k.Part) (hit : CatalogHit)
    (exec : k.Exec) : Prop where
  there : (k.parts w)[i]? = some x
  stands : k.StandsFor c x hit
  connects : ∃ id, c.Connects id hit.provider
  resolved : (k.parts (c.resolve w).value)[i]? = some (k.equip x (some exec))

end EntryKind

namespace Context

variable {c : Context} {w : Workflow} {i : Nat} {hit : CatalogHit}

theorem exists_connection? {provider : String} (connects : ∃ id, c.Connects id provider)
    (hint : Option String) : ∃ id, c.connection? provider hint = some id := by
  cases found : c.connection? provider hint with
  | none =>
    obtain ⟨id, connects⟩ := connects
    exact absurd connects (connection?_eq_none.mp found id)
  | some id => exact ⟨id, rfl⟩

theorem getElem?_triggers_resolve (c : Context) (w : Workflow) (i : Nat) :
    (c.resolve w).value.triggers[i]? = w.triggers[i]?.map fun t =>
      (c.resolveTrigger w.id w.version (indexed "triggers" i) t).value := by
  simp [value_resolve, List.getElem?_zipIdx, Function.comp_def]

theorem value_resolveTrigger_of_stands {t : Trigger} {id : String} (stands : t.StandsFor c hit)
    (connected : c.connection? hit.provider t.connectionHint = some id) (workflowId : String)
    (version : Version) (path : String) :
    (c.resolveTrigger workflowId version path t).value
      = { t with exec := some (c.triggerExec workflowId version path t hit id).value } := by
  simp [resolveTrigger, stands.found, refusedDelivery?_eq_none.mpr stands.delivers, value_connectionFor,
    connected]

/-- The inputs of an exec block are vouched for. -/
theorem allVouched_of_equipped {a : Action} {exec : ActionExec}
    (h : EntryKind.action.Equipped c w i a hit exec)
    (distinct : (hit.entry.params.map Prod.fst).Nodup) :
    AllVouched hit.entry.params (indexed "actions" i ++ ".required_inputs.") exec.requiredInputs
        (c.resolve w).log.warnings ∧
      AllVouched hit.entry.params (indexed "actions" i ++ ".optional_inputs.") exec.optionalInputs
        (c.resolve w).log.warnings := by
  obtain ⟨id, connected⟩ := exists_connection? h.connects a.connectionHint
  have there : w.actions[i]? = some a := h.there
  have resolved : (c.resolve w).value.actions[i]? = some { a with exec := some exec } := h.resolved
  rw [getElem?_actions_resolve, there, Option.map_some,
    value_resolveAction_of_stands h.stands connected] at resolved
  have same : (c.actionExec (indexed "actions" i) a hit id).value = exec :=
    Option.some.inj (congrArg Action.exec (Option.some.inj resolved))
  have report : (splitInputs a hit.entry.params (indexed "actions" i)).log.warnings
      ⊆ (c.resolve w).log.warnings := by
    intro d mem
    rw [← warnings_resolveAction_of_stands h.stands connected] at mem
    exact mem_warnings_resolve.mpr (.inr ⟨i, a, there, mem⟩)
  obtain ⟨required, optional⟩ := allVouched_splitInputs distinct a (indexed "actions" i)
  rw [← same]
  exact ⟨required.mono report, optional.mono report⟩

section
variable {t : Trigger} {exec : TriggerExec} (h : EntryKind.trigger.Equipped c w i t hit exec)
  (distinct : (hit.entry.params.map Prod.fst).Nodup)
include h distinct

/-- A declared parameter of a configuration is what the trigger gives, in the form of its type, or else the
    default as it is. -/
theorem member?_configuration_of_equipped {k : String} {p : ParamSpec}
    (declared : (k, p) ∈ hit.entry.params) :
    exec.configuration.member? k = ((t.configuration.member? k).map p.settle).or p.default := by
  obtain ⟨id, connected⟩ := exists_connection? h.connects t.connectionHint
  have there : w.triggers[i]? = some t := h.there
  have resolved : (c.resolve w).value.triggers[i]? = some { t with exec := some exec } := h.resolved
  rw [getElem?_triggers_resolve, there, Option.map_some,
    value_resolveTrigger_of_stands h.stands connected] at resolved
  have same : (c.triggerExec w.id w.version (indexed "triggers" i) t hit id).value = exec :=
    Option.some.inj (congrArg Trigger.exec (Option.some.inj resolved))
  rw [← same, triggerExec, Traced.value_bind, Traced.value_pure, Coercion.member?_withDefaults distinct,
    Coercion.value_coerceParams, Object.member?_mapKeyed fun name =>
      settleAs (Table.entry? hit.entry.params name), Table.entry?_of_mem distinct declared]
  rfl

/-- What the trigger gives itself is vouched for. -/
theorem vouched_of_equipped {k : String} {p : ParamSpec} {v : Value}
    (declared : (k, p) ∈ hit.entry.params) (given : t.configuration.has k = true)
    (held : exec.configuration.member? k = some v) :
    Vouched (c.resolve w).log.warnings (indexed "triggers" i ++ ".configuration." ++ k) p v := by
  obtain ⟨id, connected⟩ := exists_connection? h.connects t.connectionHint
  have base : indexed "triggers" i ++ ".configuration" ++ "." ++ k
      = indexed "triggers" i ++ ".configuration." ++ k := by
    simp only [String.append_assoc]
    rfl
  have own := allVouched_coerceParams distinct t.configuration
    (indexed "triggers" i ++ ".configuration") k p v declared
  rw [base] at own
  obtain ⟨u, there⟩ := Option.isSome_iff_exists.mp given
  rw [member?_configuration_of_equipped h distinct declared, there] at held
  refine (own ?_).mono fun d mem => ?_
  · rw [Coercion.value_coerceParams, Object.member?_mapKeyed fun name =>
      settleAs (Table.entry? hit.entry.params name), there, Table.entry?_of_mem distinct declared]
    exact held
  · rw [← warnings_resolveTrigger_of_stands h.stands connected w.id w.version] at mem
    exact mem_warnings_resolve.mpr (.inl ⟨i, t, h.there, mem⟩)

end

/-- A parameter of a trigger is reported only where the trigger gives it. -/
theorem has_of_reportsUnfit {t : Trigger} {k : String} (there : w.triggers[i]? = some t)
    (unfit : ReportsUnfit (c.resolve w).log.warnings (indexed "triggers" i ++ ".configuration." ++ k)) :
    t.configuration.has k = true := by
  obtain ⟨d, mem, -, place⟩ := unfit
  rcases mem_warnings_resolve.mp mem with ⟨j, t', there', mem⟩ | ⟨j, a, -, mem⟩
  · obtain ⟨-, m, hm, same⟩ := warnings_resolveTrigger _ _ _ _ d mem
    have paths := place.symm.trans same
    simp only [String.append_assoc] at paths
    obtain ⟨rfl, rest⟩ := indexed_append_inj paths
    cases there.symm.trans there'
    cases (String.append_right_inj _).mp rest
    refine Option.isSome_iff_ne_none.mpr fun absent => ?_
    simpa using List.lookup_eq_none_iff.mp absent m hm
  · obtain ⟨-, name, same⟩ := warnings_resolveAction _ _ d mem
    have apart (s s' : String) : indexed "triggers" i ++ s ≠ indexed "actions" j ++ s' :=
      append_ne_of_letter (i := 0) (getElem?_indexed rfl i) (getElem?_indexed rfl j) (by decide) s s'
    rw [place] at same
    simp only [String.append_assoc] at same
    rcases same with same | same
    · exact absurd same (apart _ _)
    · exact absurd same (apart _ _)

end Context

/-- Numbers are not reported under triggers. -/
theorem not_reportsUnfit_refusals (doc : Value) (i : Nat) (s : String) :
    ¬ReportsUnfit (PolicyNumbers.refusals (PolicyNumbers.listed doc)) (indexed "triggers" i ++ s) := by
  rintro ⟨d, mem, -, place⟩
  obtain ⟨l, hl, e, -, rfl⟩ := PolicyNumbers.mem_refusals.mp mem
  obtain ⟨h, u, -, hl⟩ := Holder.mem_listed.mp hl
  obtain ⟨s', same⟩ := Holder.path_of_mem_listed hl
  have other : 't' ≠ h.letter := by cases h <;> simp [Holder.letter]
  exact append_ne_of_letter (getElem?_indexed rfl i) h.letter_path other s s' (place.symm.trans same)

namespace RepairStrategy

/-- Repairs after which there is no trigger and no action that was not there before. -/
def AddsNothing (repair : RepairStrategy) : Prop :=
  ∀ w log, (repair w log).1.triggers ⊆ w.triggers ∧ (repair w log).1.actions ⊆ w.actions

theorem none_addsNothing : none.AddsNothing := fun _ _ => ⟨fun _ => id, fun _ => id⟩

end RepairStrategy

namespace Materializer

/-- The exec blocks of a compilation. Every declared input of an action is vouched for. A declared parameter of
    a trigger is vouched for just if the trigger gives it or it has the form of its type, and if the trigger
    does not give it, it is the default of the catalog as it is. The document has no other blocks, if repairs
    add nothing. That no name is declared twice holds of every table that is read, by
    `Table.nodup_ofList`. -/
theorem vouched_parameters (m : Materializer) (template : Value) (c : Context) (w : Workflow)
    (valid : (validate template).value = true)
    (read : Workflow.ofValue (prepare template c.answers).value = .ok w) :
    (∀ i (a : Action) hit (exec : ActionExec), EntryKind.action.Equipped c w i a hit exec →
      (hit.entry.params.map Prod.fst).Nodup →
      AllVouched hit.entry.params (indexed "actions" i ++ ".required_inputs.") exec.requiredInputs
          (m.compile template c).diagnostics.warnings ∧
        AllVouched hit.entry.params (indexed "actions" i ++ ".optional_inputs.") exec.optionalInputs
          (m.compile template c).diagnostics.warnings) ∧
    (∀ i (t : Trigger) hit (exec : TriggerExec), EntryKind.trigger.Equipped c w i t hit exec →
      (hit.entry.params.map Prod.fst).Nodup →
      ∀ k p v, (k, p) ∈ hit.entry.params → exec.configuration.member? k = some v →
        (Vouched (m.compile template c).diagnostics.warnings
            (indexed "triggers" i ++ ".configuration." ++ k) p v ↔
          t.configuration.has k = true ∨ Coercion.coerce v p.type = .ok v) ∧
        (t.configuration.has k = false → p.default = some v)) ∧
    (m.repair.AddsNothing → ∀ d, (m.compile template c).document = some d →
      d.triggers ⊆ (c.resolve w).value.triggers ∧ d.actions ⊆ (c.resolve w).value.actions) := by
  have resolving : (c.resolve w).log.warnings ⊆ (m.compile template c).diagnostics.warnings := by
    rw [warnings_compile m valid read]
    exact fun d mem => List.mem_append_left _ (List.mem_append_right _ mem)
  refine ⟨fun i a hit exec equipped distinct => ?_, fun i t hit exec equipped distinct k p v declared held =>
    ⟨⟨?_, ?_⟩, fun absent => ?_⟩, fun adds d made => ?_⟩
  · obtain ⟨required, optional⟩ := allVouched_of_equipped equipped distinct
    exact ⟨required.mono resolving, optional.mono resolving⟩
  · rintro (form | unfit)
    · exact .inr form
    · simp only [String.append_assoc] at unfit
      rcases (reportsUnfit_compile m valid read _).mp unfit with number | param
      · exact absurd number (not_reportsUnfit_refusals _ _ _)
      · simp only [← String.append_assoc] at param
        exact .inl (has_of_reportsUnfit equipped.there param)
  · rintro (given | form)
    · exact (vouched_of_equipped equipped distinct declared given held).mono resolving
    · exact .inl form
  · rw [member?_configuration_of_equipped equipped distinct declared] at held
    have absent : t.configuration.member? k = none := by simpa [Object.has] using absent
    simpa [absent] using held
  · rw [compile_of_read m valid read] at made
    rw [(document_finish made).1]
    exact adds _ _

/-- A trigger with a default that is a text where a whole number is declared. -/
def pollEntry : CatalogEntry where
  id := "m1"
  slug := "new_mail"
  name := none
  icon := none
  params := [("limit", ⟨.integer, false, some (.str "5"), none⟩), ("since", ⟨.integer, false, none, none⟩)]
  policy := .none
  supportedDelivery := []

/-- An action with such a default. -/
def sendEntry : CatalogEntry where
  id := "m2"
  slug := "send"
  name := none
  icon := none
  params := [("priority", ⟨.integer, true, some (.str "3"), none⟩), ("copies", ⟨.integer, false, none, none⟩)]
  policy := .none
  supportedDelivery := []

def pollContext : Context where
  index := .build ⟨[("acme", ⟨[("mail", ⟨none, [pollEntry], [sendEntry]⟩)]⟩)]⟩
  user := none
  connections := [("conn1", ⟨"acme", []⟩)]
  answers := []
  defaults := .none

/-- A trigger with the given configuration and an action with the given optional inputs. -/
def pollTemplate (configuration inputs : Object) : Value :=
  .obj [("workflow_id", .str "w"), ("version", .int 1),
    ("triggers", .arr [.obj [("local_id", .str "t"), ("toolkit_slug", .str "mail"),
      ("trigger_ref", .str "m1"), ("configuration", .obj configuration)]]),
    ("actions", .arr [.obj [("local_id", .str "a"), ("toolkit_slug", .str "mail"),
      ("action_ref", .str "m2"), ("optional_inputs", .obj inputs)]])]

/-- What becomes of a trigger that gives the time as a word and leaves the limit to the catalog. -/
def pollExec : TriggerExec where
  provider := "acme"
  triggerSlug := "new_mail"
  configuration := [("limit", .str "5"), ("since", .str "soon")]
  connectionId := "conn1"
  instanceId := none

/-- What becomes of an action that gives the copies as a word and leaves the priority to the catalog. -/
def sendExec : ActionExec where
  provider := "acme"
  actionSlug := "send"
  connectionId := "conn1"
  requiredInputs := [("priority", .int 3)]
  optionalInputs := [("copies", .str "two")]
  retry := .builtin
  timeoutMs := builtinTimeoutMs
  rateLimit := .builtin

/-- What the trigger and the action give is reported if it is unfit, and the default of the action is made a
    number. Nobody vouches for the default of the trigger. -/
theorem vouched_parameters_poll :
    ∃ w t a, Workflow.ofValue (prepare (pollTemplate [("since", .str "soon")]
          [("copies", .str "two")]) pollContext.answers).value = .ok w ∧
      EntryKind.trigger.Equipped pollContext w 0 t ⟨"acme", "mail", none, pollEntry⟩ pollExec ∧
      EntryKind.action.Equipped pollContext w 0 a ⟨"acme", "mail", none, sendEntry⟩ sendExec ∧
      (∀ d, (standard.compile (pollTemplate [("since", .str "soon")] [("copies", .str "two")])
          pollContext).document = some d →
        d.triggers ⊆ (pollContext.resolve w).value.triggers ∧
          d.actions ⊆ (pollContext.resolve w).value.actions) ∧
      ∀ ds, ds = (standard.compile (pollTemplate [("since", .str "soon")] [("copies", .str "two")])
          pollContext).diagnostics.warnings →
        Vouched ds "actions[0].optional_inputs.copies" ⟨.integer, false, none, none⟩ (.str "two") ∧
        Vouched ds "triggers[0].configuration.since" ⟨.integer, false, none, none⟩ (.str "soon") ∧
        ¬Vouched ds "triggers[0].configuration.limit" ⟨.integer, false, some (.str "5"), none⟩ (.str "5") := by
  have facts : (Workflow.ofValue (prepare (pollTemplate [("since", .str "soon")]
        [("copies", .str "two")]) pollContext.answers).value).toOption.bind (fun w =>
      w.triggers[0]?.bind fun t => w.actions[0]?.map fun a =>
        decide (pollContext.index.find? .trigger t.toolkitSlug t.triggerRef
            = some ⟨"acme", "mail", none, pollEntry⟩ ∧ t.delivery = none ∧
          t.configuration = [("since", .str "soon")] ∧
          (pollContext.resolve w).value.triggers[0]? = some { t with exec := some pollExec } ∧
          pollContext.index.find? .action a.toolkitSlug a.actionRef
            = some ⟨"acme", "mail", none, sendEntry⟩ ∧
          (pollContext.resolve w).value.actions[0]? = some { a with exec := some sendExec }))
      = some true := by
    decide +kernel
  obtain ⟨w, read, facts⟩ := Option.bind_eq_some_iff.mp facts
  obtain ⟨t, trigger, facts⟩ := Option.bind_eq_some_iff.mp facts
  obtain ⟨a, action, facts⟩ := Option.map_eq_some_iff.mp facts
  obtain ⟨hit, anyhow, given, resolved, hit', resolved'⟩ := of_decide_eq_true facts
  have read := eq_ok_of_toOption read
  have connects : ∃ id, pollContext.Connects id "acme" := ⟨"conn1", ⟨"acme", []⟩, List.mem_cons_self, rfl⟩
  have equipped : EntryKind.trigger.Equipped pollContext w 0 t ⟨"acme", "mail", none, pollEntry⟩ pollExec :=
    ⟨trigger, ⟨hit, by simp [anyhow]⟩, connects, resolved⟩
  have equipped' : EntryKind.action.Equipped pollContext w 0 a ⟨"acme", "mail", none, sendEntry⟩ sendExec :=
    ⟨action, ⟨hit'⟩, connects, resolved'⟩
  obtain ⟨actions, triggers, left⟩ := vouched_parameters standard _ pollContext w (by decide +kernel) read
  refine ⟨w, t, a, read, equipped, equipped', left RepairStrategy.none_addsNothing, ?_⟩
  rintro ds rfl
  have param := triggers 0 t _ _ equipped (by decide)
  refine ⟨(actions 0 a _ _ equipped' (by decide)).2 "copies" _ _ (by decide) rfl, ?_, ?_⟩
  · exact (param "since" _ _ (by decide) rfl).1.mpr (.inl (by rw [given]; rfl))
  · intro vouched
    rcases (param "limit" _ _ (by decide) rfl).1.mp vouched with given' | form
    · rw [given] at given'
      exact absurd given' (by decide)
    · exact absurd form (by decide +kernel)

/-- The default of a trigger is in its exec block as the text that it is, without a warning, though it has the
    form of a whole number. -/
theorem compile_keeps_loose_default :
    (standard.compile (pollTemplate [] []) pollContext).document.map
        (fun d => d.triggers.map fun t => t.exec.map (·.configuration))
      = some [some [("limit", .str "5")]] ∧
    (standard.compile (pollTemplate [] []) pollContext).diagnostics.warnings = [] ∧
    Coercion.coerce (.str "5") .integer = .ok (.int 5) := by
  decide +kernel

end Materializer

end Flowgraph
