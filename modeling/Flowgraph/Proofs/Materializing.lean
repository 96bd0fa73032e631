import Flowgraph.Executable.Materialize
import Flowgraph.Proofs.References
import Flowgraph.Proofs.Traced

/-! Materializing from end to end: what each trigger and action becomes, and what it takes for a template
    to be answered with an executable. -/

namespace Flowgraph

open Json

/-- Nothing lacks an exec block just if every trigger and action has one. -/
theorem Workflow.missingExec_eq_nil {w : Workflow} : w.missingExec = [] ↔ w.Runnable := by
  rw [missingExec, List.append_eq_nil_iff, List.map_eq_nil_iff, List.map_eq_nil_iff,
    List.filter_eq_nil_iff, List.filter_eq_nil_iff,
    forall_mem_zipIdx_fst (P := fun t : Trigger => ¬t.exec.isNone),
    forall_mem_zipIdx_fst (P := fun a : Action => ¬a.exec.isNone)]
  constructor
  · rintro ⟨triggers, actions⟩
    exact ⟨fun t ht => by simpa [Option.isSome_iff_ne_none] using triggers t ht,
      fun a ha => by simpa [Option.isSome_iff_ne_none] using actions a ha⟩
  · intro h
    exact ⟨fun t ht => by simpa [Option.isSome_iff_ne_none] using h.triggers t ht,
      fun a ha => by simpa [Option.isSome_iff_ne_none] using h.actions a ha⟩

/-! ### Connections -/

namespace Context

/-- The connection of the given id is with the provider. -/
def Connects (c : Context) (id provider : String) : Prop :=
  ∃ conn, (id, conn) ∈ c.connections ∧ conn.provider = provider

theorem mem_of_entry? {t : Table α} {key : String} {a : α} (h : t.entry? key = some a) :
    (key, a) ∈ t := by
  obtain ⟨before, after, rfl, -⟩ := List.lookup_eq_some_iff.mp h
  exact List.mem_append_right _ (List.mem_cons_self ..)

theorem connects_of_connection? {c : Context} {provider : String} {hint : Option String}
    {id : String} (h : c.connection? provider hint = some id) : c.Connects id provider := by
  simp only [connection?, Option.orElse_eq_orElse, Option.orElse_eq_or, Option.or_eq_some_iff] at h
  rcases h with h | ⟨-, h⟩
  · obtain ⟨hinted, -, h⟩ := Option.bind_eq_some_iff.mp h
    split at h
    · rename_i conn there
      obtain ⟨same, own⟩ := Option.ite_none_right_eq_some.mp h
      cases own
      exact ⟨conn, mem_of_entry? there, same⟩
    · cases h
  · obtain ⟨⟨id, conn⟩, hc, rfl⟩ := Option.map_eq_some_iff.mp h
    exact ⟨conn, List.mem_of_find?_eq_some hc, by simpa using List.find?_some hc⟩

/-- A connection is found wherever there is one. -/
theorem connection?_eq_none {c : Context} {provider : String} {hint : Option String} :
    c.connection? provider hint = none ↔ ∀ id, ¬c.Connects id provider := by
  constructor
  · rintro h id ⟨conn, there, same⟩
    simp only [connection?, Option.orElse_eq_orElse, Option.orElse_eq_or, Option.or_eq_none_iff,
      Option.map_eq_none_iff, List.find?_eq_none] at h
    exact h.2 _ there (by simpa using same)
  · intro h
    cases found : c.connection? provider hint with
    | none => rfl
    | some id => exact absurd (connects_of_connection? found) (h id)

end Context

/-! ### Triggers and actions -/

/-- The entry that a trigger stands for, delivering in the way the trigger asks for. -/
structure Trigger.StandsFor (c : Context) (t : Trigger) (hit : CatalogHit) : Prop where
  found : c.index.find? .trigger t.toolkitSlug t.triggerRef = some hit
  delivers : ∀ delivery, t.delivery = some delivery → delivery ∈ hit.entry.supportedDelivery

/-- The entry that an action stands for. -/
structure Action.StandsFor (c : Context) (a : Action) (hit : CatalogHit) : Prop where
  found : c.index.find? .action a.toolkitSlug a.actionRef = some hit

/-- A trigger with an entry and a connection to its provider. -/
def Trigger.Resolvable (c : Context) (t : Trigger) : Prop :=
  ∃ hit id, t.StandsFor c hit ∧ c.Connects id hit.provider

/-- An action with an entry and a connection to its provider. -/
def Action.Resolvable (c : Context) (a : Action) : Prop :=
  ∃ hit id, a.StandsFor c hit ∧ c.Connects id hit.provider

namespace Context

theorem value_connectionFor (c : Context) (hit : CatalogHit) (hint : Option String)
    (path : String) : (c.connectionFor hit hint path).value = c.connection? hit.provider hint := by
  simp only [connectionFor]
  split <;> rfl

theorem refusedDelivery?_eq_none {t : Trigger} {e : CatalogEntry} :
    refusedDelivery? t e = none
      ↔ ∀ delivery, t.delivery = some delivery → delivery ∈ e.supportedDelivery := by
  simp [refusedDelivery?, Option.filter_eq_none_iff, CatalogEntry.supportsDelivery]

/-- A trigger that cannot be resolved is left as it is; any other gets a new exec block. -/
theorem resolveTrigger_cases (c : Context) (workflowId : String) (version : Version)
    (path : String) (t : Trigger) :
    (¬t.Resolvable c ∧ (c.resolveTrigger workflowId version path t).value = t) ∨
    ∃ hit id, t.StandsFor c hit ∧ c.Connects id hit.provider ∧
      (c.resolveTrigger workflowId version path t).value
        = { t with exec := some (c.triggerExec workflowId version path t hit id).value } := by
  cases found : c.index.find? .trigger t.toolkitSlug t.triggerRef with
  | none =>
    refine .inl ⟨?_, by simp [resolveTrigger, found]⟩
    rintro ⟨hit, id, stands, -⟩
    rw [stands.found] at found
    cases found
  | some hit =>
    have only : ∀ hit', t.StandsFor c hit' → hit' = hit := fun hit' stands =>
      Option.some.inj (stands.found.symm.trans found)
    cases refused : refusedDelivery? t hit.entry with
    | some delivery =>
      refine .inl ⟨?_, by simp [resolveTrigger, found, refused]⟩
      rintro ⟨hit', id, stands, -⟩
      obtain rfl := only hit' stands
      rw [refusedDelivery?_eq_none.mpr stands.delivers] at refused
      cases refused
    | none =>
      cases connected : c.connection? hit.provider t.connectionHint with
      | none =>
        refine .inl ⟨?_, by simp [resolveTrigger, found, refused, value_connectionFor, connected]⟩
        rintro ⟨hit', id, stands, connects⟩
        obtain rfl := only hit' stands
        exact connection?_eq_none.mp connected id connects
      | some id =>
        refine .inr ⟨hit, id, ⟨found, refusedDelivery?_eq_none.mp refused⟩,
          connects_of_connection? connected, ?_⟩
        simp [resolveTrigger, found, refused, value_connectionFor, connected]

/-- What becomes of an action with an entry and a connection. -/
theorem value_resolveAction_of_stands {c : Context} {a : Action} {hit : CatalogHit} {id : String}
    (stands : a.StandsFor c hit) (connected : c.connection? hit.provider a.connectionHint = some id)
    (path : String) :
    (c.resolveAction path a).value = { a with exec := some (c.actionExec path a hit id).value } := by
  simp [resolveAction, stands.found, value_connectionFor, connected]

/-- An action that cannot be resolved is left as it is; any other gets a new exec block. -/
theorem resolveAction_cases (c : Context) (path : String) (a : Action) :
    (¬a.Resolvable c ∧ (c.resolveAction path a).value = a) ∨
    ∃ hit id, a.StandsFor c hit ∧ c.Connects id hit.provider ∧
      (c.resolveAction path a).value
        = { a with exec := some (c.actionExec path a hit id).value } := by
  cases found : c.index.find? .action a.toolkitSlug a.actionRef with
  | none =>
    refine .inl ⟨?_, by simp [resolveAction, found]⟩
    rintro ⟨hit, id, stands, -⟩
    rw [stands.found] at found
    cases found
  | some hit =>
    cases connected : c.connection? hit.provider a.connectionHint with
    | none =>
      refine .inl ⟨?_, by simp [resolveAction, found, value_connectionFor, connected]⟩
      rintro ⟨hit', id, stands, connects⟩
      obtain rfl : hit' = hit := Option.some.inj (stands.found.symm.trans found)
      exact connection?_eq_none.mp connected id connects
    | some id =>
      exact .inr ⟨hit, id, ⟨found⟩, connects_of_connection? connected,
        value_resolveAction_of_stands ⟨found⟩ connected path⟩

/-- What a workflow becomes: each trigger and action by itself, and the policies. -/
theorem value_resolve (c : Context) (w : Workflow) :
    (c.resolve w).value = c.injectDefaults { w with
      triggers := w.triggers.zipIdx.map fun x =>
        (c.resolveTrigger w.id w.version (indexed "triggers" x.2) x.1).value
      actions := w.actions.zipIdx.map fun x =>
        (c.resolveAction (indexed "actions" x.2) x.1).value } := by
  simp [resolve]

@[simp] theorem triggers_injectDefaults (c : Context) (w : Workflow) :
    (c.injectDefaults w).triggers = w.triggers := by
  rw [injectDefaults]; split <;> rfl

@[simp] theorem actions_injectDefaults (c : Context) (w : Workflow) :
    (c.injectDefaults w).actions = w.actions := by
  rw [injectDefaults]; split <;> rfl

end Context

/-! ### Compiling a template -/

namespace Materializer

/-- A mended document is handed out if everything in it can be run. -/
theorem document_finish {m : Materializer} {w d : Workflow} {log : Diagnostics}
    (h : (m.finish w log).document = some d) :
    d = (m.repair w (log ++ m.scanner.scan w.toValue)).1 ∧ d.Runnable := by
  simp only [finish] at h
  split at h
  · rename_i complete
    cases h
    exact ⟨rfl, Workflow.missingExec_eq_nil.mp (List.map_eq_nil_iff.mp complete)⟩
  · cases h

/-- An executable that is handed out was read from the prepared template, resolved and mended, and
    everything in it can be run. -/
theorem exists_of_compile_eq_some {m : Materializer} {template : Value} {c : Context}
    {d : Workflow} (h : (m.compile template c).document = some d) :
    ∃ w log, Workflow.ofValue (prepare template c.answers).value = .ok w ∧
      d = (m.repair (c.resolve w).value log).1 ∧ d.Runnable := by
  rw [compile] at h
  cases valid : (validate template).value with
  | false => simp [valid] at h
  | true =>
    cases read : Workflow.ofValue (prepare template c.answers).value with
    | error cause => simp [valid, read] at h
    | ok w =>
      simp only [valid, read] at h
      exact ⟨w, _, rfl, document_finish h⟩

end Materializer

end Flowgraph
