import Flowgraph.Proofs.Paths
import Flowgraph.Proofs.Refusals
import Flowgraph.Proofs.Resolution

/-! All warnings of a compilation and where they point. They are those for refused numbers, those for parameters
    that have no form in their type, and the findings of the scanner. The path of a warning tells which of
    these it is and about what. -/

namespace Flowgraph

open Json Context PolicyNumbers

/-- It is reported that the value at the path has not the form of its type. -/
def ReportsUnfit (ds : List Diagnostic) (path : String) : Prop :=
  ∃ d ∈ ds, d.code = .paramCoercionFailed ∧ d.path = path

theorem mem_flatMap_zipIdx {xs : List α} {f : α × Nat → List β} {y : β} :
    y ∈ xs.zipIdx.flatMap f ↔ ∃ i x, xs[i]? = some x ∧ y ∈ f (x, i) := by
  simp only [List.mem_flatMap, Prod.exists, List.mem_zipIdx_iff_getElem?]
  exact exists_comm

/-! ### Refused numbers -/

namespace PolicyNumbers

theorem mem_numbers {path hint : String} {fields : List NumericField} {v : Value} {l : Listed} :
    l ∈ numbers path hint fields v
      ↔ ∃ f ∈ fields, ∃ w, present (v.member? f.1) = some w ∧
          l = ⟨path ++ "." ++ f.1, hint, f.2.coerce w⟩ := by
  simp only [numbers, List.mem_flatMap, Option.mem_toList, Option.map_eq_some_iff]
  refine exists_congr fun f => and_congr_right fun _ => exists_congr fun w => and_congr_right fun _ => ?_
  exact eq_comm

/-- A policy is reported itself, or its number fields are. -/
theorem mem_policyNumbers {path name : String} {fields : List NumericField} {v : Value} {l : Listed}
    (mem : l ∈ policyNumbers path name fields v) :
    l.path = path ++ "." ++ name ∨
      ∃ o : Object, v.member? name = some (.obj o) ∧
        l ∈ numbers (path ++ "." ++ name) nextSourceHint fields (.obj o) := by
  rw [policyNumbers] at mem
  split at mem
  · cases mem
  · cases mem
  · rename_i o there
    exact .inr ⟨o, there, mem⟩
  · cases List.mem_singleton.mp mem
    exact .inl rfl

theorem mem_setNumbers {path : String} {fields : List NumericField} {v : Value} {l : Listed} :
    l ∈ setNumbers path fields v
      ↔ (∃ f ∈ fields, ∃ w, present (v.member? f.1) = some w ∧
          l = ⟨path ++ "." ++ f.1, nextSourceHint, f.2.coerce w⟩) ∨
        ∃ q ∈ objectPolicies, l ∈ policyNumbers path q.1 q.2 v := by
  simp only [setNumbers, List.mem_append, mem_numbers, objectPolicies, List.exists_mem_cons_iff,
    List.not_mem_nil, false_and, exists_false, or_false, or_assoc]

end PolicyNumbers

namespace Holder

/-- The path under which the numbers of a holder are reported. -/
def path : Holder → String
  | .action i => indexed "actions" i
  | .policies => "policies"
  | .loop i => indexed "flow_control.loops" i

/-- The numbers of what stands in the place of a holder. -/
def listed (v : Value) : Holder → List Listed
  | .action i => setNumbers (indexed "actions" i) actionFields v
  | .policies => setNumbers "policies" policiesFields v
  | .loop i => numbers (indexed "flow_control.loops" i) loopDefaultHint loopFields v

/-- The numbers of a document are those of its holders. -/
theorem mem_listed {doc : Value} {l : Listed} :
    l ∈ PolicyNumbers.listed doc ↔ ∃ (h : Holder) (u : Value), h.find? doc = some u ∧ l ∈ h.listed u := by
  rw [PolicyNumbers.listed, List.mem_append, List.mem_append, mem_flatMap_zipIdx,
    mem_flatMap_zipIdx]
  constructor
  · rintro ((⟨i, u, there, mem⟩ | mem) | ⟨i, u, there, mem⟩)
    · exact ⟨.action i, u, there, mem⟩
    · cases there : doc.member? "policies" with
      | none => simp [there] at mem
      | some u =>
        rw [there] at mem
        exact ⟨.policies, u, there, mem⟩
    · refine ⟨.loop i, u, ?_, mem⟩
      rw [loopsOf] at there
      rw [find?]
      cases flow : doc.member? "flow_control" with
      | none => simp [flow] at there
      | some f => simpa [flow] using there
  · rintro ⟨h, u, there, mem⟩
    cases h with
    | action i => exact .inl (.inl ⟨i, u, there, mem⟩)
    | policies =>
      have there : doc.member? "policies" = some u := there
      exact .inl (.inr (by rw [there]; exact mem))
    | loop i =>
      obtain ⟨f, flow, there⟩ := Option.bind_eq_some_iff.mp there
      refine .inr ⟨i, u, ?_, mem⟩
      rw [loopsOf, flow]
      exact there

/-- The first letter of the path. -/
def letter : Holder → Char
  | .action _ => 'a'
  | .policies => 'p'
  | .loop _ => 'f'

theorem letter_path (h : Holder) : h.path.toList[0]? = some h.letter := by
  cases h with
  | action i => exact getElem?_indexed rfl i
  | policies => rfl
  | loop i => exact getElem?_indexed rfl i

/-- A path below that of a holder tells the holder. -/
theorem path_append_inj {h h' : Holder} {s s' : String} (same : h.path ++ s = h'.path ++ s') :
    h = h' ∧ s = s' := by
  have letters : h.letter = h'.letter := by
    by_contra other
    exact append_ne_of_letter h.letter_path h'.letter_path other s s' same
  cases h with
  | action i =>
    cases h' with
    | action j =>
      obtain ⟨rfl, rest⟩ := indexed_append_inj same
      exact ⟨rfl, rest⟩
    | policies | loop _ => simp [letter] at letters
  | policies =>
    cases h' with
    | policies => exact ⟨rfl, (String.append_right_inj _).mp same⟩
    | action _ | loop _ => simp [letter] at letters
  | loop i =>
    cases h' with
    | loop j =>
      obtain ⟨rfl, rest⟩ := indexed_append_inj same
      exact ⟨rfl, rest⟩
    | action _ | policies => simp [letter] at letters

/-- What is reported about a holder is reported below its path. -/
theorem path_of_mem_listed {h : Holder} {u : Value} {l : Listed} (mem : l ∈ h.listed u) :
    ∃ s, l.path = h.path ++ s := by
  have plain {path hint : String} {fields : List NumericField} {v : Value}
      (mem : l ∈ numbers path hint fields v) : ∃ s, l.path = path ++ s := by
    obtain ⟨f, -, w, -, rfl⟩ := mem_numbers.mp mem
    exact ⟨"." ++ f.1, String.append_assoc ..⟩
  have policy {path name : String} {fields : List NumericField} {v : Value}
      (mem : l ∈ policyNumbers path name fields v) : ∃ s, l.path = path ++ s := by
    rcases mem_policyNumbers mem with same | ⟨o, -, mem⟩
    · exact ⟨"." ++ name, same.trans (String.append_assoc ..)⟩
    · obtain ⟨s, same⟩ := plain mem
      exact ⟨"." ++ (name ++ s), by simp only [same, String.append_assoc]⟩
  have set {path : String} {fields : List NumericField} {v : Value}
      (mem : l ∈ setNumbers path fields v) : ∃ s, l.path = path ++ s := by
    rcases mem_setNumbers.mp mem with ⟨f, -, w, -, rfl⟩ | ⟨q, -, mem⟩
    · exact ⟨"." ++ f.1, String.append_assoc ..⟩
    · exact policy mem
  cases h with
  | action i => exact set mem
  | policies => exact set mem
  | loop i => exact plain mem

end Holder

namespace PolicyNumbers

theorem mem_refusals {ls : List Listed} {d : Diagnostic} :
    d ∈ refusals ls ↔ ∃ l ∈ ls, ∃ e, l.taken = .error e ∧
      d = ⟨.paramCoercionFailed, l.path, e.message, some l.hint⟩ := by
  have each (l : Listed) : l.refusal? = some d ↔ ∃ e, l.taken = .error e ∧
      d = ⟨.paramCoercionFailed, l.path, e.message, some l.hint⟩ := by
    rw [Listed.refusal?]
    cases l.taken with
    | ok w => simp
    | error e => simp [eq_comm]
  simp only [refusals, List.mem_filterMap, each]

end PolicyNumbers

/-- An entry at the path is refused. -/
def PolicyNumbers.Refuses (ls : List Listed) (path : String) : Prop :=
  ∃ l ∈ ls, l.path = path ∧ ∃ e, l.taken = .error e

/-- What is refused below the path of a set of policies is one of its numbers, a whole policy or a number of
    a policy, and the rest of the path tells which. -/
theorem PolicyNumbers.cases_of_refuses {path s : String} {fields : List NumericField} {u : Value}
    (refuses : Refuses (setNumbers path fields u) (path ++ s)) :
    (∃ f ∈ fields, "." ++ f.1 = s ∧
      ∃ v e, present (u.member? f.1) = some v ∧ f.2.coerce v = .error e) ∨
    ∃ q ∈ objectPolicies, "." ++ q.1 = s ∨
      ∃ o : Object, u.member? q.1 = some (.obj o) ∧ ∃ f ∈ q.2, "." ++ q.1 ++ "." ++ f.1 = s ∧
        ∃ v e, present (o.member? f.1) = some v ∧ f.2.coerce v = .error e := by
  obtain ⟨l, mem, place, e, refused⟩ := refuses
  rcases mem_setNumbers.mp mem with ⟨f, hf, v, there, rfl⟩ | ⟨q, hq, mem⟩
  · rw [String.append_assoc] at place
    exact .inl ⟨f, hf, (String.append_right_inj _).mp place, v, e, there, refused⟩
  · refine .inr ⟨q, hq, ?_⟩
    rcases mem_policyNumbers mem with same | ⟨o, policy, mem⟩
    · rw [same, String.append_assoc] at place
      exact .inl ((String.append_right_inj _).mp place)
    · obtain ⟨f, hf, v, there, rfl⟩ := mem_numbers.mp mem
      simp only [String.append_assoc] at place
      refine .inr ⟨o, policy, f, hf, ?_, v, e, there, refused⟩
      simp only [String.append_assoc]
      exact (String.append_right_inj _).mp place

/-- What is reported below the path of a holder is refused in the place of this holder. -/
theorem Holder.reportsUnfit_refusals {h : Holder} {doc : Value} {s : String} :
    ReportsUnfit (refusals (PolicyNumbers.listed doc)) (h.path ++ s)
      ↔ ∃ u, h.find? doc = some u ∧ Refuses (h.listed u) (h.path ++ s) := by
  constructor
  · rintro ⟨d, mem, -, place⟩
    obtain ⟨l, hl, e, refused, rfl⟩ := mem_refusals.mp mem
    obtain ⟨h', u, found, hl⟩ := mem_listed.mp hl
    obtain ⟨s', same⟩ := path_of_mem_listed hl
    obtain ⟨rfl, -⟩ := path_append_inj (place.symm.trans same)
    exact ⟨u, found, l, hl, place, e, refused⟩
  · rintro ⟨u, found, l, hl, place, e, refused⟩
    exact ⟨_, mem_refusals.mpr ⟨l, mem_listed.mpr ⟨h, u, found, hl⟩, e, refused, rfl⟩, rfl, place⟩

/-! ### Findings -/

namespace SecretScanner

variable {s : SecretScanner}

theorem code_of_mem_check {key path : String} {v : Value} :
    ∀ d ∈ s.check key path v, d.code = .potentialSecret := by
  intro d mem
  rw [check] at mem
  split at mem
  · cases List.mem_singleton.mp mem
    rfl
  · cases mem

mutual

/-- Whatever the scanner finds is a possible secret. -/
theorem code_of_mem_findings (path : String) (v : Value) :
    ∀ d ∈ s.findings path v, d.code = .potentialSecret := by
  intro d mem
  cases v with
  | obj members => exact code_of_mem_memberFindings path members d mem
  | arr items => exact code_of_mem_itemFindings path 0 items d mem
  | null | bool _ | num _ | str _ => cases mem

theorem code_of_mem_memberFindings (path : String) (members : List (String × Value)) :
    ∀ d ∈ s.memberFindings path members, d.code = .potentialSecret := by
  intro d mem
  cases members with
  | nil => cases mem
  | cons m members =>
    rw [memberFindings, List.mem_append] at mem
    rcases mem with here | later
    · split at here
      · cases here
      · rcases List.mem_append.mp here with here | inside
        · exact code_of_mem_check d here
        · exact code_of_mem_findings _ m.2 d inside
    · exact code_of_mem_memberFindings path members d later

theorem code_of_mem_itemFindings (path : String) (i : Nat) (items : List Value) :
    ∀ d ∈ s.itemFindings path i items, d.code = .potentialSecret := by
  intro d mem
  cases items with
  | nil => cases mem
  | cons v items =>
    rw [itemFindings, List.mem_append] at mem
    rcases mem with here | later
    · exact code_of_mem_findings _ v d here
    · exact code_of_mem_itemFindings path (i + 1) items d later

end

end SecretScanner

/-! ### Parameters -/

namespace Coercion

theorem mem_warnings_coerceDeclared (v : Value) (p? : Option ParamSpec) (path : String) :
    ∀ d ∈ (coerceDeclared v p? path).log.warnings, d.code = .paramCoercionFailed ∧ d.path = path := by
  intro d mem
  cases p? with
  | none => cases mem
  | some p =>
    simp only [coerceDeclared, coerceParam] at mem
    split at mem
    · cases mem
    · cases List.mem_singleton.mp mem
      exact ⟨rfl, rfl⟩

theorem warnings_coerceParams (params : Object) (spec : Table ParamSpec) (path : String) :
    (coerceParams params spec path).log.warnings
      = params.flatMap fun m =>
          (coerceDeclared m.2 (Table.entry? spec m.1) (path ++ "." ++ m.1)).log.warnings := by
  simp [coerceParams]

/-- Parameters are reported under their names. -/
theorem mem_warnings_coerceParams {params : Object} {spec : Table ParamSpec} {path : String} :
    ∀ d ∈ (coerceParams params spec path).log.warnings,
      d.code = .paramCoercionFailed ∧ ∃ m ∈ params, d.path = path ++ "." ++ m.1 := by
  intro d mem
  rw [warnings_coerceParams] at mem
  obtain ⟨m, hm, mem⟩ := List.mem_flatMap.mp mem
  obtain ⟨code, same⟩ := mem_warnings_coerceDeclared _ _ _ d mem
  exact ⟨code, m, hm, same⟩

end Coercion

namespace Context

variable {c : Context}

/-- Where the inputs of an action are reported. -/
def InputPath (path place : String) : Prop :=
  ∃ name, place = path ++ ".required_inputs." ++ name ∨ place = path ++ ".optional_inputs." ++ name

theorem mem_warnings_splitInputs {a : Action} {spec : Table ParamSpec} {path : String} :
    ∀ d ∈ (splitInputs a spec path).log.warnings,
      d.code = .paramCoercionFailed ∧ InputPath path d.path := by
  have required (s : SplitInputs) (param : String × ParamSpec) :
      ∀ d ∈ (splitRequired a.requiredInputs path s param).log.warnings,
        d.code = .paramCoercionFailed ∧ InputPath path d.path := by
    intro d mem
    simp only [splitRequired] at mem
    split at mem
    · rename_i v _
      simp only [Traced.log_bind, Diagnostics.warnings_append, Traced.log_pure,
        Diagnostics.warnings_empty, List.append_nil] at mem
      obtain ⟨code, same⟩ := Coercion.mem_warnings_coerceDeclared v (some param.2) _ d mem
      exact ⟨code, param.1, .inl same⟩
    · simp at mem
  have further (o : Object) (input : String × Value) :
      ∀ d ∈ (splitFurther spec path o input).log.warnings,
        d.code = .paramCoercionFailed ∧ InputPath path d.path := by
    intro d mem
    simp only [splitFurther] at mem
    split at mem
    · cases mem
    · simp only [Traced.log_bind, Diagnostics.warnings_append, Traced.log_pure,
        Diagnostics.warnings_empty, List.append_nil] at mem
      obtain ⟨code, same⟩ := Coercion.mem_warnings_coerceDeclared _ _ _ d mem
      exact ⟨code, input.1, .inl same⟩
  intro d mem
  simp only [splitInputs, Traced.log_bind, Diagnostics.warnings_append, Traced.log_pure,
    Diagnostics.warnings_empty, List.append_nil, List.mem_append] at mem
  rcases mem with mem | mem | mem
  · exact Traced.forall_warnings_foldlM required _ _ d mem
  · exact Traced.forall_warnings_foldlM further _ _ d mem
  · obtain ⟨code, m, -, same⟩ := Coercion.mem_warnings_coerceParams d mem
    exact ⟨code, m.1, .inr (by rw [same]; simp only [String.append_assoc]; rfl)⟩

@[simp] theorem warnings_connectionFor (hit : CatalogHit) (hint : Option String) (path : String) :
    (c.connectionFor hit hint path).log.warnings = [] := by
  simp only [connectionFor]
  split <;> simp

/-- The warnings of a trigger with an entry and a connection are those of its parameters. -/
theorem warnings_resolveTrigger_of_stands {t : Trigger} {hit : CatalogHit} {id : String}
    (stands : t.StandsFor c hit) (connected : c.connection? hit.provider t.connectionHint = some id)
    (workflowId : String) (version : Version) (path : String) :
    (c.resolveTrigger workflowId version path t).log.warnings
      = (Coercion.coerceParams t.configuration hit.entry.params (path ++ ".configuration")).log.warnings := by
  simp [resolveTrigger, stands.found, refusedDelivery?_eq_none.mpr stands.delivers, value_connectionFor,
    connected, triggerExec]

theorem warnings_resolveTrigger (workflowId : String) (version : Version) (path : String) (t : Trigger) :
    ∀ d ∈ (c.resolveTrigger workflowId version path t).log.warnings,
      d.code = .paramCoercionFailed ∧
        ∃ m ∈ t.configuration, d.path = path ++ ".configuration." ++ m.1 := by
  intro d mem
  cases found : c.index.find? .trigger t.toolkitSlug t.triggerRef with
  | none => simp [resolveTrigger, found] at mem
  | some hit =>
    cases refused : refusedDelivery? t hit.entry with
    | some delivery => simp [resolveTrigger, found, refused] at mem
    | none =>
      cases connected : c.connection? hit.provider t.connectionHint with
      | none => simp [resolveTrigger, found, refused, value_connectionFor, connected] at mem
      | some id =>
        rw [warnings_resolveTrigger_of_stands ⟨found, refusedDelivery?_eq_none.mp refused⟩ connected] at mem
        obtain ⟨code, m, hm, same⟩ := Coercion.mem_warnings_coerceParams d mem
        exact ⟨code, m, hm, by rw [same]; simp only [String.append_assoc]; rfl⟩

theorem warnings_resolveAction_of_stands {a : Action} {hit : CatalogHit} {id : String}
    (stands : a.StandsFor c hit) (connected : c.connection? hit.provider a.connectionHint = some id)
    (path : String) :
    (c.resolveAction path a).log.warnings = (splitInputs a hit.entry.params path).log.warnings := by
  simp [resolveAction, stands.found, value_connectionFor, connected, actionExec]

theorem warnings_resolveAction (path : String) (a : Action) :
    ∀ d ∈ (c.resolveAction path a).log.warnings,
      d.code = .paramCoercionFailed ∧ InputPath path d.path := by
  intro d mem
  cases found : c.index.find? .action a.toolkitSlug a.actionRef with
  | none => simp [resolveAction, found] at mem
  | some hit =>
    cases connected : c.connection? hit.provider a.connectionHint with
    | none => simp [resolveAction, found, value_connectionFor, connected] at mem
    | some id =>
      rw [warnings_resolveAction_of_stands ⟨found⟩ connected] at mem
      exact mem_warnings_splitInputs d mem

/-- The warnings of resolving are those of each trigger and each action. -/
theorem mem_warnings_resolve {w : Workflow} {d : Diagnostic} :
    d ∈ (c.resolve w).log.warnings ↔
      (∃ i t, w.triggers[i]? = some t ∧
        d ∈ (c.resolveTrigger w.id w.version (indexed "triggers" i) t).log.warnings) ∨
      ∃ i a, w.actions[i]? = some a ∧ d ∈ (c.resolveAction (indexed "actions" i) a).log.warnings := by
  simp only [resolve, Traced.log_bind, Traced.log_pure, Diagnostics.warnings_append,
    Diagnostics.warnings_empty, Traced.warnings_mapM, List.append_nil, List.mem_append,
    mem_flatMap_zipIdx]

/-- Resolving reports nothing but parameters that have no form in their type. -/
theorem code_of_mem_warnings_resolve {w : Workflow} :
    ∀ d ∈ (c.resolve w).log.warnings, d.code = .paramCoercionFailed := by
  intro d mem
  rcases mem_warnings_resolve.mp mem with ⟨i, t, -, mem⟩ | ⟨i, a, -, mem⟩
  · exact (warnings_resolveTrigger _ _ _ _ d mem).1
  · exact (warnings_resolveAction _ _ d mem).1

end Context

namespace Materializer

theorem warnings_validate (template : Value) : (validate template).log.warnings = [] := by
  have fields (doc : Value) (names : List String) (path : String) :
      (Path.requireFields doc names path).log.warnings = [] := by
    rw [Path.requireFields]
    split <;> simp
  rw [validate, Traced.log_bind, Diagnostics.warnings_append, fields, List.nil_append]
  refine List.eq_nil_iff_forall_not_mem.mpr (Traced.forall_warnings_foldlM (fun valid e d mem => ?_) _ _)
  simp [fields] at mem

theorem warnings_prepare (template : Value) (answers : Object) :
    (prepare template answers).log.warnings
      = refusals (listed (Placeholder.apply answers template)) := by
  rw [log_prepare]
  rfl

theorem warnings_finish (m : Materializer) (w : Workflow) (log : Diagnostics) :
    (m.finish w log).diagnostics.warnings = log.warnings ++ m.scanner.findings "" w.toValue := by
  simp only [finish]
  split <;> rfl

/-- The warnings of a compilation: those for refused numbers, those for parameters, and the findings. -/
theorem warnings_compile (m : Materializer) {template : Value} {c : Context} {w : Workflow}
    (valid : (validate template).value = true)
    (read : Workflow.ofValue (prepare template c.answers).value = .ok w) :
    (m.compile template c).diagnostics.warnings
      = refusals (listed (Placeholder.apply c.answers template)) ++ (c.resolve w).log.warnings
        ++ m.scanner.findings "" (c.resolve w).value.toValue := by
  rw [compile_of_read m valid read, warnings_finish]
  simp [warnings_validate, warnings_prepare]

/-- That a value is unfit is reported for a number or for a parameter. -/
theorem reportsUnfit_compile (m : Materializer) {template : Value} {c : Context} {w : Workflow}
    (valid : (validate template).value = true)
    (read : Workflow.ofValue (prepare template c.answers).value = .ok w) (path : String) :
    ReportsUnfit (m.compile template c).diagnostics.warnings path ↔
      ReportsUnfit (refusals (listed (Placeholder.apply c.answers template))) path ∨
        ReportsUnfit (c.resolve w).log.warnings path := by
  rw [warnings_compile m valid read]
  constructor
  · rintro ⟨d, mem, code, same⟩
    rw [List.mem_append, List.mem_append] at mem
    rcases mem with (number | param) | finding
    · exact .inl ⟨d, number, code, same⟩
    · exact .inr ⟨d, param, code, same⟩
    · rw [SecretScanner.code_of_mem_findings _ _ d finding] at code
      cases code
  · rintro (⟨d, mem, code, same⟩ | ⟨d, mem, code, same⟩)
    · exact ⟨d, List.mem_append_left _ (List.mem_append_left _ mem), code, same⟩
    · exact ⟨d, List.mem_append_left _ (List.mem_append_right _ mem), code, same⟩

end Materializer

end Flowgraph
