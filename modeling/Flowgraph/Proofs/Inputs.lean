import Flowgraph.Proofs.Json.Tables
import Flowgraph.Proofs.Resolution
import Flowgraph.Proofs.Workflow.NormalForm

/-! Where the inputs of a resolved action come from. A parameter that the catalog requires is looked up in the
    required inputs, in the optional ones and in the catalog; all other inputs stay in the map that they
    were given in. The loops behind this change a map while they go through the declared parameters, but
    each touches its own name only, and no name is declared twice. -/

namespace Flowgraph

open Json

/-- The value in the form of the declared type, or as it is if it has none. -/
def ParamSpec.settle (p : ParamSpec) (v : Value) : Value := (Coercion.coerce v p.type).toOption.getD v

/-- The same for a parameter that may not be declared. -/
def settleAs (p? : Option ParamSpec) (v : Value) : Value := p?.elim v (·.settle v)

namespace Coercion

@[simp] theorem value_coerceParam (v : Value) (p : ParamSpec) (path : String) :
    (coerceParam v p path).value = p.settle v := by
  rw [coerceParam, ParamSpec.settle]
  cases coerce v p.type <;> rfl

@[simp] theorem value_coerceDeclared (v : Value) (p? : Option ParamSpec) (path : String) :
    (coerceDeclared v p? path).value = settleAs p? v := by
  cases p? with
  | none => rfl
  | some p => exact value_coerceParam v p path

theorem value_coerceParams (params : Object) (spec : Table ParamSpec) (path : String) :
    (coerceParams params spec path).value
      = params.map fun m => (m.1, settleAs (Table.entry? spec m.1) m.2) := by
  simp [coerceParams]

end Coercion

namespace Context

/-! ### Required parameters -/

/-- A value that is there and not `null`. -/
def nonNull (v : Option Value) : Option Value := v.filter (· ≠ .null)

theorem present_eq : present = nonNull := by
  funext v
  rw [present, nonNull]
  congr 1
  funext x
  cases x <;> rfl

/-- The value of a required parameter: the one among the required inputs, else the one among the optional
    inputs, else the default. -/
def source? (required optional : Object) (name : String) (p : ParamSpec) : Option Value :=
  nonNull (required.member? name) <|> nonNull (optional.member? name) <|> p.default

/-- The report that a required parameter has no value. -/
def missingParam (path name : String) : Diagnostic :=
  ⟨.missingRequiredParam, path ++ ".required_inputs." ++ name,
    "Required parameter '" ++ name ++ "' has no value",
    some ("Provide '" ++ name ++ "' in required_inputs or through an answer")⟩

section
variable (inputs : Object) (path : String)

/-- One turn of the loop over the required parameters: the value that was found is put under its name, and
    the name is taken out of the optional inputs if the required ones do not have it. -/
theorem splitRequired_spec (s : SplitInputs) (param : String × ParamSpec) :
    (splitRequired inputs path s param).value
        = ⟨(source? inputs s.leftover param.1 param.2).elim s.required
            fun v => Object.put param.1 (param.2.settle v) s.required,
          if (nonNull (inputs.member? param.1)).isSome then s.leftover
            else Object.without param.1 s.leftover⟩ ∧
      (splitRequired inputs path s param).log.errors
        = if (source? inputs s.leftover param.1 param.2).isNone then [missingParam path param.1]
          else [] := by
  cases found : source? inputs s.leftover param.1 param.2 with
  | none =>
    rw [source?] at found
    simp only [splitRequired, present_eq, found]
    simp [missingParam]
  | some v =>
    rw [source?] at found
    simp only [splitRequired, present_eq, found]
    simp

theorem required_splitRequired (s : SplitInputs) (param : String × ParamSpec) (k : String) :
    (splitRequired inputs path s param).value.required.member? k
      = if k = param.1 then
          ((source? inputs s.leftover param.1 param.2).map param.2.settle).or (s.required.member? k)
        else s.required.member? k := by
  rw [(splitRequired_spec ..).1]
  cases source? inputs s.leftover param.1 param.2 with
  | none => simp
  | some v => exact Object.member?_put ..

theorem leftover_splitRequired (s : SplitInputs) (param : String × ParamSpec) (k : String) :
    (splitRequired inputs path s param).value.leftover.member? k
      = if k = param.1 ∧ nonNull (inputs.member? param.1) = none then none
        else s.leftover.member? k := by
  rw [(splitRequired_spec ..).1]
  cases nonNull (inputs.member? param.1) with
  | some v => simp
  | none =>
    simp only [Option.isSome_none, Bool.false_eq_true, if_false, and_true, Object.without]
    rw [Object.member?_filter (· != param.1)]
    by_cases same : k = param.1 <;> simp [same]

/-- Another name has the same source after the turn as before. -/
theorem source?_splitRequired (s : SplitInputs) (param : String × ParamSpec) {k : String}
    (other : k ≠ param.1) (p : ParamSpec) :
    source? inputs (splitRequired inputs path s param).value.leftover k p
      = source? inputs s.leftover k p := by
  rw [source?, source?, leftover_splitRequired, if_neg fun h => other h.1]

theorem sorted_splitRequired {s : SplitInputs} (param : String × ParamSpec)
    (required : s.required.Sorted) (leftover : s.leftover.Sorted) :
    (splitRequired inputs path s param).value.required.Sorted ∧
      (splitRequired inputs path s param).value.leftover.Sorted := by
  rw [(splitRequired_spec ..).1]
  constructor
  · cases source? inputs s.leftover param.1 param.2 with
    | none => exact required
    | some v => exact required.put _ _
  · dsimp only
    split
    · exact leftover
    · exact leftover.filter _

theorem sorted_foldlM_splitRequired (params : Table ParamSpec) {s : SplitInputs}
    (required : s.required.Sorted) (leftover : s.leftover.Sorted) :
    (params.foldlM (splitRequired inputs path) s).value.required.Sorted ∧
      (params.foldlM (splitRequired inputs path) s).value.leftover.Sorted := by
  induction params generalizing s with
  | nil => exact ⟨required, leftover⟩
  | cons param params ih =>
    obtain ⟨required, leftover⟩ := sorted_splitRequired inputs path param required leftover
    rw [List.foldlM_cons, Traced.value_bind]
    exact ih required leftover

end

section
variable {inputs : Object} {path : String} {params : Table ParamSpec}
  (distinct : (params.map Prod.fst).Nodup) (s : SplitInputs)
include distinct

/-- What the loop has found in the end, if no name comes twice. -/
theorem required_foldlM_splitRequired (k : String) :
    (params.foldlM (splitRequired inputs path) s).value.required.member? k
      = ((Table.entry? params k).bind fun p => (source? inputs s.leftover k p).map p.settle).or
          (s.required.member? k) := by
  induction params generalizing s with
  | nil => rfl
  | cons param params ih =>
    obtain ⟨new, distinct⟩ := List.nodup_cons.mp distinct
    -- The turn settles its own name, which does not come again, and no other name's source.
    rw [List.foldlM_cons, Traced.value_bind, ih distinct, required_splitRequired, Table.entry?_cons]
    by_cases same : k = param.1
    · subst same
      simp [Table.entry?_eq_none new]
    · rw [if_neg same, if_neg same]
      simp only [source?_splitRequired inputs path s param same]

/-- What the loop leaves of the optional inputs. -/
theorem leftover_foldlM_splitRequired (k : String) :
    (params.foldlM (splitRequired inputs path) s).value.leftover.member? k
      = if (Table.entry? params k).isSome ∧ nonNull (inputs.member? k) = none then none
        else s.leftover.member? k := by
  induction params generalizing s with
  | nil => rfl
  | cons param params ih =>
    obtain ⟨new, distinct⟩ := List.nodup_cons.mp distinct
    rw [List.foldlM_cons, Traced.value_bind, ih distinct, leftover_splitRequired, Table.entry?_cons]
    by_cases same : k = param.1
    · subst same
      simp [Table.entry?_eq_none new]
    · simp [same]

/-- What the loop reports: the names without a source, in order. -/
theorem errors_foldlM_splitRequired :
    (params.foldlM (splitRequired inputs path) s).log.errors
      = (params.filter fun x => (source? inputs s.leftover x.1 x.2).isNone).map
          fun x => missingParam path x.1 := by
  induction params generalizing s with
  | nil => rfl
  | cons param params ih =>
    obtain ⟨new, distinct⟩ := List.nodup_cons.mp distinct
    have rest : params.filter (fun x =>
          (source? inputs (splitRequired inputs path s param).value.leftover x.1 x.2).isNone)
        = params.filter fun x => (source? inputs s.leftover x.1 x.2).isNone := by
      refine List.filter_congr fun x hx => ?_
      have other : x.1 ≠ param.1 := fun same => new (same ▸ List.mem_map_of_mem hx)
      rw [source?_splitRequired inputs path s param other]
    rw [List.foldlM_cons, Traced.log_bind, Diagnostics.errors_append, ih distinct, rest,
      (splitRequired_spec ..).2, List.filter_cons]
    by_cases missing : (source? inputs s.leftover param.1 param.2).isNone <;> simp [missing]

end

/-! ### The other inputs -/

theorem isRequired_eq (spec : Table ParamSpec) (name : String) :
    isRequired spec name = ((Table.entry? spec name).filter (·.required)).isSome := by
  rw [isRequired]
  cases Table.entry? spec name with
  | none => rfl
  | some p => cases required : p.required <;> simp [Option.filter_some, required]

theorem value_splitFurther (spec : Table ParamSpec) (path : String) (required : Object)
    (input : String × Value) :
    (splitFurther spec path required input).value
      = if isRequired spec input.1 then required
        else Object.put input.1 (settleAs (Table.entry? spec input.1) input.2) required := by
  simp only [splitFurther]
  split <;> simp

/-- The loop over the required inputs takes over all that the catalog does not require. In a list that is no
    map it is the last member of a key that stays. -/
theorem member?_foldlM_splitFurther (spec : Table ParamSpec) (path : String) (inputs required : Object)
    (k : String) :
    (inputs.foldlM (splitFurther spec path) required).value.member? k
      = if isRequired spec k then required.member? k
        else ((inputs.last? k).map (settleAs (Table.entry? spec k))).or (required.member? k) := by
  induction inputs generalizing required with
  | nil => simp [Object.last?, Object.member?]
  | cons input inputs ih =>
    rw [List.foldlM_cons, Traced.value_bind, ih, value_splitFurther, Object.last?_cons]
    by_cases same : k = input.1
    · subst same
      by_cases declared : isRequired spec input.1
      · simp [declared]
      · cases Object.last? inputs input.1 <;> simp [declared, Object.member?_put]
    · by_cases declared : isRequired spec input.1 <;> simp [declared, same, Object.member?_put]

theorem sorted_foldlM_splitFurther (spec : Table ParamSpec) (path : String) (inputs : Object)
    {required : Object} (sorted : required.Sorted) :
    (inputs.foldlM (splitFurther spec path) required).value.Sorted := by
  induction inputs generalizing required with
  | nil => exact sorted
  | cons input inputs ih =>
    rw [List.foldlM_cons, Traced.value_bind, value_splitFurther]
    refine ih ?_
    split
    · exact sorted
    · exact sorted.put _ _

/-! ### The exec block of an action -/

theorem sorted_splitInputs {a : Action} (optional : a.optionalInputs.Sorted) (spec : Table ParamSpec)
    (path : String) :
    (splitInputs a spec path).value.1.Sorted ∧ (splitInputs a spec path).value.2.Sorted := by
  simp only [splitInputs, Traced.value_bind, Traced.value_pure, Coercion.value_coerceParams]
  obtain ⟨found, left⟩ := sorted_foldlM_splitRequired a.requiredInputs path
    (spec.filter (·.2.required)) (s := ⟨[], a.optionalInputs⟩) .nil optional
  exact ⟨sorted_foldlM_splitFurther _ _ _ found,
    left.mapKeyed fun name => settleAs (Table.entry? spec name)⟩

section
variable {a : Action} {spec : Table ParamSpec} (distinct : (spec.map Prod.fst).Nodup) (path : String)
include distinct

theorem nodup_required : ((spec.filter (·.2.required)).map Prod.fst).Nodup :=
  distinct.sublist (List.filter_sublist.map Prod.fst)

theorem required_splitInputs (sorted : a.requiredInputs.Sorted) (k : String) :
    (splitInputs a spec path).value.1.member? k
      = if isRequired spec k then ((Table.entry? spec k).filter (·.required)).bind fun p =>
          (source? a.requiredInputs a.optionalInputs k p).map p.settle
        else (a.requiredInputs.member? k).map (settleAs (Table.entry? spec k)) := by
  simp only [splitInputs, Traced.value_bind, Traced.value_pure]
  rw [member?_foldlM_splitFurther, required_foldlM_splitRequired (nodup_required distinct), sorted.last?,
    Table.entry?_filter distinct, isRequired_eq]
  cases (Table.entry? spec k).filter (·.required) with
  | none => simp [Object.member?]
  | some p => simp [Object.member?]

theorem optional_splitInputs (k : String) :
    (splitInputs a spec path).value.2.member? k
      = if isRequired spec k ∧ nonNull (a.requiredInputs.member? k) = none then none
        else (a.optionalInputs.member? k).map (settleAs (Table.entry? spec k)) := by
  simp only [splitInputs, Traced.value_bind, Traced.value_pure]
  rw [Coercion.value_coerceParams, Object.member?_mapKeyed fun name => settleAs (Table.entry? spec name),
    leftover_foldlM_splitRequired (nodup_required distinct), Table.entry?_filter distinct, isRequired_eq]
  split <;> rfl

theorem errors_splitInputs :
    (splitInputs a spec path).log.errors
      = (spec.filter fun x => x.2.required &&
          (source? a.requiredInputs a.optionalInputs x.1 x.2).isNone).map
          fun x => missingParam path x.1 := by
  have further (required : Object) :
      (a.requiredInputs.foldlM (splitFurther spec path) required).log.errors = [] :=
    Traced.errors_foldlM_eq_nil (errors_splitFurther spec path) ..
  simp only [splitInputs, Traced.log_bind, Diagnostics.errors_append, further,
    Coercion.errors_coerceParams, Traced.log_pure, Diagnostics.errors_empty, List.append_nil,
    errors_foldlM_splitRequired (nodup_required distinct)]
  rw [List.filter_filter]
  simp only [Bool.and_comm]

theorem isRequired_of_mem {k : String} {p : ParamSpec} (declared : (k, p) ∈ spec)
    (required : p.required = true) :
    isRequired spec k = true ∧ (Table.entry? spec k).filter (·.required) = some p := by
  rw [isRequired_eq, Table.entry?_of_mem distinct declared]
  simp [Option.filter_some, required]

end

theorem exists_of_isRequired {spec : Table ParamSpec} {k : String} (h : isRequired spec k = true) :
    ∃ p, (k, p) ∈ spec ∧ p.required = true := by
  rw [isRequired_eq, Option.isSome_iff_exists] at h
  obtain ⟨p, found⟩ := h
  obtain ⟨entry, required⟩ := Option.filter_eq_some_iff.mp found
  exact ⟨p, mem_of_entry? entry, required⟩

end Context

/-- The inputs of an exec block are those of the action. A required parameter has the value of its source
    under the required inputs; it is taken out of the optional ones if the required ones do not give it. All
    other inputs stay where they are. Each value is brought into the form of its type. -/
structure ActionExec.Conserves (exec : ActionExec) (a : Action) (spec : Table ParamSpec) : Prop where
  requiredSorted : exec.requiredInputs.Sorted
  optionalSorted : exec.optionalInputs.Sorted
  settled : ∀ k p, (k, p) ∈ spec → p.required = true →
    exec.requiredInputs.member? k
      = (Context.source? a.requiredInputs a.optionalInputs k p).map p.settle
  further : ∀ k, (∀ p, (k, p) ∈ spec → p.required = false) →
    exec.requiredInputs.member? k = (a.requiredInputs.member? k).map (settleAs (Table.entry? spec k))
  moved : ∀ k p, (k, p) ∈ spec → p.required = true →
    Context.nonNull (a.requiredInputs.member? k) = none → exec.optionalInputs.member? k = none
  kept : ∀ k, (∀ p, (k, p) ∈ spec → p.required = true →
      Context.nonNull (a.requiredInputs.member? k) ≠ none) →
    exec.optionalInputs.member? k = (a.optionalInputs.member? k).map (settleAs (Table.entry? spec k))

namespace Context

theorem conserves_actionExec (c : Context) {a : Action} (required : a.requiredInputs.Sorted)
    (optional : a.optionalInputs.Sorted) {hit : CatalogHit}
    (distinct : (hit.entry.params.map Prod.fst).Nodup) (path id : String) :
    (c.actionExec path a hit id).value.Conserves a hit.entry.params := by
  obtain ⟨requiredSorted, optionalSorted⟩ := sorted_splitInputs optional hit.entry.params path
  have requiredInputs : (c.actionExec path a hit id).value.requiredInputs
      = (splitInputs a hit.entry.params path).value.1 := by simp [actionExec]
  have optionalInputs : (c.actionExec path a hit id).value.optionalInputs
      = (splitInputs a hit.entry.params path).value.2 := by simp [actionExec]
  constructor
  · rw [requiredInputs]
    exact requiredSorted
  · rw [optionalInputs]
    exact optionalSorted
  · intro k p declared isRequired
    obtain ⟨yes, entry⟩ := isRequired_of_mem distinct declared isRequired
    rw [requiredInputs, required_splitInputs distinct path required, if_pos yes, entry]
    rfl
  · intro k undeclared
    have no : ¬ isRequired hit.entry.params k = true := by
      intro yes
      obtain ⟨p, declared, isRequired⟩ := exists_of_isRequired yes
      simp [undeclared p declared] at isRequired
    rw [requiredInputs, required_splitInputs distinct path required, if_neg no]
  · intro k p declared isRequired absent
    obtain ⟨yes, -⟩ := isRequired_of_mem distinct declared isRequired
    rw [optionalInputs, optional_splitInputs distinct path, if_pos ⟨yes, absent⟩]
  · intro k given
    rw [optionalInputs, optional_splitInputs distinct path, if_neg]
    rintro ⟨yes, absent⟩
    obtain ⟨p, declared, isRequired⟩ := exists_of_isRequired yes
    exact given p declared isRequired absent

theorem errors_resolveAction {c : Context} {a : Action} {hit : CatalogHit} {id : String}
    (stands : a.StandsFor c hit) (connected : c.connection? hit.provider a.connectionHint = some id)
    (path : String) :
    (c.resolveAction path a).log.errors = (splitInputs a hit.entry.params path).log.errors := by
  simp [resolveAction, stands.found, value_connectionFor, errors_connectionFor, connected, actionExec]

theorem getElem?_actions_resolve (c : Context) (w : Workflow) (i : Nat) :
    (c.resolve w).value.actions[i]?
      = w.actions[i]?.map fun a => (c.resolveAction (indexed "actions" i) a).value := by
  simp [value_resolve, List.getElem?_zipIdx, Function.comp_def]

end Context

/-- The inputs of an action that was read are in order. -/
theorem Workflow.sorted_inputs_of_ofValue {document : Value} {w : Workflow}
    (read : Workflow.ofValue document = .ok w) {a : Action} (ha : a ∈ w.actions) :
    a.requiredInputs.Sorted ∧ a.optionalInputs.Sorted := by
  have actions : ∀ a ∈ w.actions, a.canonical = a := List.map_inj_left.mp <|
    (congrArg Workflow.actions (canonical_of_ofValue read)).trans (List.map_id' _).symm
  have required : a.requiredInputs.canonical = a.requiredInputs :=
    congrArg Action.requiredInputs (actions a ha)
  have optional : a.optionalInputs.canonical = a.optionalInputs :=
    congrArg Action.optionalInputs (actions a ha)
  rw [← required, ← optional]
  exact ⟨Object.sorted_canonical _, Object.sorted_canonical _⟩

namespace Context

/-- An action that stands for an entry of the catalog and has a connection gets an exec block that conserves
    its inputs. The errors are one for each required parameter without a source, in the order in which
    the entry declares them. That no name is declared twice holds of every table that is read, by
    `Table.nodup_ofList`. -/
theorem resolve_conserves_inputs (c : Context) (document : Value) (w : Workflow)
    (read : Workflow.ofValue document = .ok w) (i : Nat) (a : Action) (there : w.actions[i]? = some a)
    (hit : CatalogHit) (id : String) (stands : a.StandsFor c hit)
    (connected : c.connection? hit.provider a.connectionHint = some id)
    (distinct : (hit.entry.params.map Prod.fst).Nodup) :
    (∃ exec, (c.resolve w).value.actions[i]? = some { a with exec := some exec } ∧
      exec.Conserves a hit.entry.params) ∧
    (c.resolveAction (indexed "actions" i) a).log.errors
      = (hit.entry.params.filter fun x => x.2.required &&
          (source? a.requiredInputs a.optionalInputs x.1 x.2).isNone).map
          fun x => missingParam (indexed "actions" i) x.1 := by
  obtain ⟨required, optional⟩ := Workflow.sorted_inputs_of_ofValue read (List.mem_of_getElem? there)
  constructor
  · refine ⟨_, ?_, c.conserves_actionExec required optional distinct (indexed "actions" i) id⟩
    rw [getElem?_actions_resolve, there, Option.map_some, value_resolveAction_of_stands stands connected]
  · rw [errors_resolveAction stands connected, errors_splitInputs distinct]

/-- An entry with parameters of all kinds: with and without a default, required and not. -/
def ledgerEntry : CatalogEntry where
  id := "l1"
  slug := "book"
  name := none
  icon := none
  params := .ofList [("memo", ⟨.string, true, none, none⟩), ("account", ⟨.string, true, none, none⟩),
    ("amount", ⟨.integer, true, none, none⟩), ("currency", ⟨.string, true, some (.str "EUR"), none⟩),
    ("tags", ⟨.array, false, none, none⟩), ("date", ⟨.any, true, none, none⟩)]
  policy := .none
  supportedDelivery := []

def ledgerContext : Context where
  index := .build ⟨[("acme", ⟨[("ledger", ⟨none, [], [ledgerEntry]⟩)]⟩)]⟩
  user := none
  connections := [("conn1", ⟨"acme", []⟩)]
  answers := []
  defaults := .none

/-- An action whose amount is `null` among the required inputs and a text among the optional ones, and whose
    date is `null` among the optional ones. -/
def ledgerTemplate : Value :=
  .obj [("workflow_id", .str "w"), ("version", .int 1), ("triggers", .arr []),
    ("actions", .arr [.obj [("local_id", .str "a"), ("toolkit_slug", .str "ledger"),
      ("action_ref", .str "book"),
      ("required_inputs", .obj [("tags", .str "a, b"), ("amount", .null), ("memo", .str "rent"),
        ("note", .int 7)]),
      ("optional_inputs", .obj [("memo", .str "old"), ("amount", .str "12"), ("date", .null),
        ("color", .str "red")])]])]

/-- The action is read and stands for the entry, and this is what its inputs are then. -/
theorem exists_ledger_action :
    ∃ w a, Workflow.ofValue ledgerTemplate = .ok w ∧ w.actions[0]? = some a ∧
      a.StandsFor ledgerContext ⟨"acme", "ledger", none, ledgerEntry⟩ ∧
      ledgerContext.connection? "acme" a.connectionHint = some "conn1" ∧
      a.requiredInputs = [("amount", .null), ("memo", .str "rent"), ("note", .int 7),
        ("tags", .str "a, b")] ∧
      a.optionalInputs = [("amount", .str "12"), ("color", .str "red"), ("date", .null),
        ("memo", .str "old")] := by
  have facts : (Workflow.ofValue ledgerTemplate).toOption.bind (fun w => w.actions[0]?.map fun a =>
      decide (ledgerContext.index.find? .action a.toolkitSlug a.actionRef
          = some ⟨"acme", "ledger", none, ledgerEntry⟩ ∧
        ledgerContext.connection? "acme" a.connectionHint = some "conn1" ∧
        a.requiredInputs = [("amount", .null), ("memo", .str "rent"), ("note", .int 7),
          ("tags", .str "a, b")] ∧
        a.optionalInputs = [("amount", .str "12"), ("color", .str "red"), ("date", .null),
          ("memo", .str "old")])) = some true := by
    decide +kernel
  obtain ⟨w, read, facts⟩ := Option.bind_eq_some_iff.mp facts
  obtain ⟨a, there, facts⟩ := Option.map_eq_some_iff.mp facts
  obtain ⟨found, connected, required, optional⟩ := of_decide_eq_true facts
  exact ⟨w, a, eq_ok_of_toOption read, there, ⟨found⟩, connected, required, optional⟩

theorem resolve_conserves_inputs_ledger :
    ∃ w a exec, Workflow.ofValue ledgerTemplate = .ok w ∧ w.actions[0]? = some a ∧
      (ledgerContext.resolve w).value.actions[0]? = some { a with exec := some exec } ∧
      exec.Conserves a ledgerEntry.params ∧
      exec.requiredInputs.member? "amount" = some (.int 12) ∧
      exec.requiredInputs.member? "tags" = some (.arr [.str "a", .str "b"]) ∧
      exec.optionalInputs.member? "amount" = none ∧
      exec.optionalInputs.member? "memo" = some (.str "old") ∧
      (ledgerContext.resolveAction (indexed "actions" 0) a).log.errors
        = [missingParam (indexed "actions" 0) "account", missingParam (indexed "actions" 0) "date"] := by
  obtain ⟨w, a, read, there, stands, connected, required, optional⟩ := exists_ledger_action
  obtain ⟨⟨exec, resolved, conserves⟩, errors⟩ := resolve_conserves_inputs ledgerContext ledgerTemplate w
    read 0 a there ⟨"acme", "ledger", none, ledgerEntry⟩ "conn1" stands connected (Table.nodup_ofList _)
  have amount : ("amount", ⟨.integer, true, none, none⟩) ∈ ledgerEntry.params := by decide
  refine ⟨w, a, exec, read, there, resolved, conserves, ?_, ?_, ?_, ?_, ?_⟩
  · rw [conserves.settled _ _ amount rfl, required, optional]
    decide +kernel
  · rw [conserves.further "tags" (by simp [ledgerEntry, Table.ofList, Table.set]), required]
    decide +kernel
  · refine conserves.moved _ _ amount rfl ?_
    rw [required]
    decide +kernel
  · rw [conserves.kept "memo", optional]
    · decide +kernel
    · intro p _ _
      rw [required]
      decide +kernel
  · rw [errors, required, optional]
    decide +kernel

end Context

/-! ### Parameters named twice -/

/-- No parameter that the catalog requires is both under the required and under the optional inputs. -/
def ActionExec.KeepsApart (exec : ActionExec) (spec : Table ParamSpec) : Prop :=
  ∀ k p, (k, p) ∈ spec → p.required = true →
    exec.requiredInputs.member? k = none ∨ exec.optionalInputs.member? k = none

/-- The action has a value for the parameter among its required inputs, and names it among the optional ones
    too. -/
def Action.NamesTwice (a : Action) (k : String) : Prop :=
  Context.nonNull (a.requiredInputs.member? k) ≠ none ∧ a.optionalInputs.member? k ≠ none

namespace ActionExec.Conserves

variable {exec : ActionExec} {a : Action} {spec : Table ParamSpec} (conserves : exec.Conserves a spec)
  (distinct : (spec.map Prod.fst).Nodup)
include conserves distinct

/-- A required parameter is under both inputs just if the action gave it so, each time with the value that it
    had there. -/
theorem both_eq_some_iff {k : String} {p : ParamSpec} (declared : (k, p) ∈ spec)
    (required : p.required = true) {u v : Value} :
    exec.requiredInputs.member? k = some u ∧ exec.optionalInputs.member? k = some v ↔
      ∃ u₀ v₀, Context.nonNull (a.requiredInputs.member? k) = some u₀ ∧
        a.optionalInputs.member? k = some v₀ ∧ p.settle u₀ = u ∧ p.settle v₀ = v := by
  cases given : Context.nonNull (a.requiredInputs.member? k) with
  | none =>
    rw [conserves.moved k p declared required given]
    simp
  | some u₀ =>
    have source : Context.source? a.requiredInputs a.optionalInputs k p = some u₀ := by
      rw [Context.source?, given]
      rfl
    have optional : exec.optionalInputs.member? k = (a.optionalInputs.member? k).map p.settle := by
      rw [conserves.kept k fun _ _ _ => by simp [given], Table.entry?_of_mem distinct declared]
      rfl
    rw [conserves.settled k p declared required, source, optional]
    simp [and_left_comm]

/-- The inputs are kept apart just if the action names no required parameter twice. -/
theorem keepsApart_iff :
    exec.KeepsApart spec ↔ ∀ k p, (k, p) ∈ spec → p.required = true → ¬a.NamesTwice k := by
  refine forall_congr' fun k => forall_congr' fun p => forall_congr' fun declared =>
    forall_congr' fun required => ?_
  have both {u v : Value} := conserves.both_eq_some_iff distinct declared required (u := u) (v := v)
  constructor
  · rintro apart ⟨given, named⟩
    obtain ⟨u₀, given⟩ := Option.ne_none_iff_exists'.mp given
    obtain ⟨v₀, named⟩ := Option.ne_none_iff_exists'.mp named
    obtain ⟨here, there⟩ := both.mpr ⟨u₀, v₀, given, named, rfl, rfl⟩
    rcases apart with absent | absent
    · simp [here] at absent
    · simp [there] at absent
  · intro once
    by_contra twice
    rw [not_or] at twice
    obtain ⟨u, here⟩ := Option.ne_none_iff_exists'.mp twice.1
    obtain ⟨v, there⟩ := Option.ne_none_iff_exists'.mp twice.2
    obtain ⟨u₀, v₀, given, named, -⟩ := both.mp ⟨here, there⟩
    exact once ⟨by simp [given], by simp [named]⟩

end ActionExec.Conserves

namespace Context

/-- The exec block of an action keeps its inputs apart just if the action names no required parameter twice. One
    that it does name twice is in the block twice, with the value that it has among the required inputs and
    with the one that it has among the optional inputs, whatever they are. -/
theorem resolve_keeps_apart_iff (c : Context) (document : Value) (w : Workflow)
    (read : Workflow.ofValue document = .ok w) (i : Nat) (a : Action) (there : w.actions[i]? = some a)
    (hit : CatalogHit) (id : String) (stands : a.StandsFor c hit)
    (connected : c.connection? hit.provider a.connectionHint = some id)
    (distinct : (hit.entry.params.map Prod.fst).Nodup) :
    ∃ exec, (c.resolve w).value.actions[i]? = some { a with exec := some exec } ∧
      (exec.KeepsApart hit.entry.params ↔
        ∀ k p, (k, p) ∈ hit.entry.params → p.required = true → ¬a.NamesTwice k) ∧
      ∀ k p, (k, p) ∈ hit.entry.params → p.required = true → ∀ u v,
        (exec.requiredInputs.member? k = some u ∧ exec.optionalInputs.member? k = some v ↔
          ∃ u₀ v₀, nonNull (a.requiredInputs.member? k) = some u₀ ∧
            a.optionalInputs.member? k = some v₀ ∧ p.settle u₀ = u ∧ p.settle v₀ = v) := by
  obtain ⟨required, optional⟩ := Workflow.sorted_inputs_of_ofValue read (List.mem_of_getElem? there)
  have conserves := c.conserves_actionExec required optional distinct (indexed "actions" i) id
  refine ⟨_, ?_, conserves.keepsApart_iff distinct, ?_⟩
  · rw [getElem?_actions_resolve, there, Option.map_some, value_resolveAction_of_stands stands connected]
  · intro k p declared isRequired u v
    exact conserves.both_eq_some_iff distinct declared isRequired

/-- The memo is in the block twice, and the amount, which is `null` among the required inputs, is not. -/
theorem resolve_keeps_apart_iff_ledger :
    ∃ w a exec, Workflow.ofValue ledgerTemplate = .ok w ∧ w.actions[0]? = some a ∧
      (ledgerContext.resolve w).value.actions[0]? = some { a with exec := some exec } ∧
      ¬exec.KeepsApart ledgerEntry.params ∧
      (exec.requiredInputs.member? "memo" = some (.str "rent") ∧
        exec.optionalInputs.member? "memo" = some (.str "old")) ∧
      ¬∃ v, exec.requiredInputs.member? "amount" = some (.int 12) ∧
        exec.optionalInputs.member? "amount" = some v := by
  obtain ⟨w, a, read, there, stands, connected, required, optional⟩ := exists_ledger_action
  obtain ⟨exec, resolved, apart, both⟩ := resolve_keeps_apart_iff ledgerContext ledgerTemplate w read 0 a
    there ⟨"acme", "ledger", none, ledgerEntry⟩ "conn1" stands connected (Table.nodup_ofList _)
  have memo : ("memo", ⟨.string, true, none, none⟩) ∈ ledgerEntry.params := by decide
  have amount : ("amount", ⟨.integer, true, none, none⟩) ∈ ledgerEntry.params := by decide
  refine ⟨w, a, exec, read, there, resolved, ?_, ?_, ?_⟩
  · intro kept
    refine apart.mp kept "memo" _ memo rfl ?_
    rw [Action.NamesTwice, required, optional]
    decide +kernel
  · refine (both "memo" _ memo rfl _ _).mpr ⟨.str "rent", .str "old", ?_, ?_, ?_⟩
    · rw [required]
      decide +kernel
    · rw [optional]
      decide +kernel
    · decide +kernel
  · rintro ⟨v, twice⟩
    obtain ⟨u₀, v₀, given, -⟩ := (both "amount" _ amount rfl _ _).mp twice
    have null : nonNull (a.requiredInputs.member? "amount") = none := by
      rw [required]
      decide +kernel
    cases null.symm.trans given

/-- The memo that is compiled is in the block with two different values. -/
theorem compile_passes_memo_on_twice :
    ∃ w a exec, (Materializer.compile ⟨.none, .standard⟩ ledgerTemplate ledgerContext).document = some w ∧
      w.actions[0]? = some a ∧ a.exec = some exec ∧ isRequired ledgerEntry.params "memo" = true ∧
      exec.requiredInputs.member? "memo" = some (.str "rent") ∧
      exec.optionalInputs.member? "memo" = some (.str "old") ∧ ¬exec.KeepsApart ledgerEntry.params := by
  have facts : (Materializer.compile ⟨.none, .standard⟩ ledgerTemplate ledgerContext).document.bind
      (fun w => w.actions[0]?.bind fun a => a.exec.map fun exec =>
        decide (exec.requiredInputs.member? "memo" = some (.str "rent") ∧
          exec.optionalInputs.member? "memo" = some (.str "old"))) = some true := by
    decide +kernel
  obtain ⟨w, compiled, facts⟩ := Option.bind_eq_some_iff.mp facts
  obtain ⟨a, there, facts⟩ := Option.bind_eq_some_iff.mp facts
  obtain ⟨exec, block, facts⟩ := Option.map_eq_some_iff.mp facts
  obtain ⟨here, also⟩ := of_decide_eq_true facts
  refine ⟨w, a, exec, compiled, there, block, by decide +kernel, here, also, fun apart => ?_⟩
  rcases apart "memo" ⟨.string, true, none, none⟩ (by decide) rfl with absent | absent
  · cases here.symm.trans absent
  · cases also.symm.trans absent

end Context

end Flowgraph
