import Flowgraph.Proofs.Materializing

/-! Where the exec blocks of an executable come from. One that is grounded names an entry of the catalog, its
    provider and a connection with that provider. Resolving grounds whatever it can resolve and leaves the
    rest as the template has it, so an executable is grounded just if nothing that cannot be resolved came
    with an exec block of its own. -/

namespace Flowgraph

open Json

/-- The exec block of a trigger is for the entry that the trigger stands for, with a connection to its
    provider. -/
def Trigger.Grounded (c : Context) (t : Trigger) : Prop :=
  ∃ hit exec, t.StandsFor c hit ∧ t.exec = some exec ∧ exec.provider = hit.provider ∧
    c.Connects exec.connectionId exec.provider

/-- The exec block of an action is for the entry that the action stands for, with a connection to its
    provider. -/
def Action.Grounded (c : Context) (a : Action) : Prop :=
  ∃ hit exec, a.StandsFor c hit ∧ a.exec = some exec ∧ exec.provider = hit.provider ∧
    c.Connects exec.connectionId exec.provider

/-- Every exec block comes from the context. -/
structure Workflow.Grounded (c : Context) (w : Workflow) : Prop where
  triggers : ∀ t ∈ w.triggers, t.Grounded c
  actions : ∀ a ∈ w.actions, a.Grounded c

theorem Trigger.Grounded.resolvable {c : Context} {t : Trigger} (h : t.Grounded c) :
    t.Resolvable c := by
  obtain ⟨hit, exec, stands, -, same, connects⟩ := h
  exact ⟨hit, exec.connectionId, stands, same ▸ connects⟩

theorem Action.Grounded.resolvable {c : Context} {a : Action} (h : a.Grounded c) :
    a.Resolvable c := by
  obtain ⟨hit, exec, stands, -, same, connects⟩ := h
  exact ⟨hit, exec.connectionId, stands, same ▸ connects⟩

namespace Context

variable (c : Context)

/-- A resolved trigger is grounded, or it is the template's and could not be resolved. -/
theorem grounded_or_kept_trigger (workflowId : String) (version : Version) (path : String)
    (t : Trigger) :
    (t.Resolvable c ∧ (c.resolveTrigger workflowId version path t).value.Grounded c) ∨
    (¬t.Resolvable c ∧ (c.resolveTrigger workflowId version path t).value = t) := by
  rcases c.resolveTrigger_cases workflowId version path t with kept | ⟨hit, id, stands, connects, h⟩
  · exact .inr kept
  · refine .inl ⟨⟨hit, id, stands, connects⟩, ?_⟩
    rw [h]
    exact ⟨hit, _, ⟨stands.found, stands.delivers⟩, rfl, by simp [triggerExec],
      by simpa [triggerExec] using connects⟩

theorem grounded_or_kept_action (path : String) (a : Action) :
    (a.Resolvable c ∧ (c.resolveAction path a).value.Grounded c) ∨
    (¬a.Resolvable c ∧ (c.resolveAction path a).value = a) := by
  rcases c.resolveAction_cases path a with kept | ⟨hit, id, stands, connects, h⟩
  · exact .inr kept
  · refine .inl ⟨⟨hit, id, stands, connects⟩, ?_⟩
    rw [h]
    exact ⟨hit, _, ⟨stands.found⟩, rfl, by simp [actionExec], by simpa [actionExec] using connects⟩

end Context

/-- The argument for triggers and actions alike: if each step grounds what can be resolved and keeps the
    rest, and everything has an exec block in the end, then all is grounded unless something that cannot
    be resolved had one before. -/
theorem all_grounded_iff {xs : List α} {f : α → Nat → α} {Grounded Resolvable : α → Prop}
    {exec : α → Option β}
    (step : ∀ x i, (Resolvable x ∧ Grounded (f x i)) ∨ (¬Resolvable x ∧ f x i = x))
    (resolvable : ∀ x, Grounded x → Resolvable x)
    (complete : ∀ y ∈ xs.zipIdx.map fun x => f x.1 x.2, (exec y).isSome) :
    (∀ y ∈ xs.zipIdx.map fun x => f x.1 x.2, Grounded y ∨ (¬Resolvable y ∧ y ∈ xs)) ∧
    ((∀ y ∈ xs.zipIdx.map fun x => f x.1 x.2, Grounded y)
      ↔ ∀ x ∈ xs, ¬Resolvable x → exec x = none) := by
  have out {x : α} {i : Nat} (hx : (x, i) ∈ xs.zipIdx) :
      f x i ∈ xs.zipIdx.map fun x => f x.1 x.2 := List.mem_map.mpr ⟨(x, i), hx, rfl⟩
  refine ⟨?_, ?_, ?_⟩
  · intro y hy
    obtain ⟨⟨x, i⟩, hx, rfl⟩ := List.mem_map.mp hy
    rcases step x i with ⟨-, grounded⟩ | ⟨unresolved, kept⟩
    · exact .inl grounded
    · simp only [kept]
      exact .inr ⟨unresolved, List.fst_mem_of_mem_zipIdx hx⟩
  · intro all x hx unresolved
    obtain ⟨i, hi⟩ := List.getElem?_of_mem hx
    have here := out (List.mem_zipIdx_iff_getElem?.mpr hi)
    rcases step x i with ⟨fine, -⟩ | ⟨-, kept⟩
    · exact absurd fine unresolved
    · exact absurd (resolvable x (kept ▸ all _ here)) unresolved
  · intro none_kept y hy
    obtain ⟨⟨x, i⟩, hx, rfl⟩ := List.mem_map.mp hy
    rcases step x i with ⟨-, grounded⟩ | ⟨unresolved, kept⟩
    · exact grounded
    · have bare := none_kept x (List.fst_mem_of_mem_zipIdx hx) unresolved
      have some_exec := complete _ (out hx)
      rw [kept, bare] at some_exec
      cases some_exec

/-- In an executable that is handed out unmended each exec block is grounded, or it is that of a trigger or
    action of the template that cannot be resolved. All are grounded just if the template gave none to
    what cannot be resolved. -/
theorem grounded_of_compile (scanner : SecretScanner) (template : Value) (c : Context)
    (d : Workflow)
    (h : (Materializer.compile ⟨.none, scanner⟩ template c).document = some d) :
    ∃ w, Workflow.ofValue (Materializer.prepare template c.answers).value = .ok w ∧
      (∀ t ∈ d.triggers, t.Grounded c ∨ (¬t.Resolvable c ∧ t ∈ w.triggers)) ∧
      (∀ a ∈ d.actions, a.Grounded c ∨ (¬a.Resolvable c ∧ a ∈ w.actions)) ∧
      (d.Grounded c ↔ (∀ t ∈ w.triggers, ¬t.Resolvable c → t.exec = none) ∧
        ∀ a ∈ w.actions, ¬a.Resolvable c → a.exec = none) := by
  obtain ⟨w, log, read, mended, runnable⟩ := Materializer.exists_of_compile_eq_some h
  have same : d = (c.resolve w).value := mended
  have triggers : d.triggers = w.triggers.zipIdx.map fun x =>
      (c.resolveTrigger w.id w.version (indexed "triggers" x.2) x.1).value := by
    rw [same, Context.value_resolve, Context.triggers_injectDefaults]
  have actions : d.actions = w.actions.zipIdx.map fun x =>
      (c.resolveAction (indexed "actions" x.2) x.1).value := by
    rw [same, Context.value_resolve, Context.actions_injectDefaults]
  obtain ⟨eachTrigger, allTriggers⟩ := all_grounded_iff
    (fun t i => c.grounded_or_kept_trigger w.id w.version (indexed "triggers" i) t)
    (fun _ => Trigger.Grounded.resolvable) (triggers ▸ runnable.triggers)
  obtain ⟨eachAction, allActions⟩ := all_grounded_iff
    (fun a i => c.grounded_or_kept_action (indexed "actions" i) a)
    (fun _ => Action.Grounded.resolvable) (actions ▸ runnable.actions)
  rw [← triggers] at eachTrigger allTriggers
  rw [← actions] at eachAction allActions
  refine ⟨w, read, eachTrigger, eachAction, ?_⟩
  rw [← allTriggers, ← allActions]
  exact ⟨fun all => ⟨all.triggers, all.actions⟩, fun all => ⟨all.1, all.2⟩⟩

/-- A context with one trigger in its catalog and a connection to its provider. -/
def mailContext : Context where
  index := .build ⟨[("acme", ⟨[("mail", ⟨none, [⟨"m1", "new_mail", none, none, [], .none, []⟩],
    []⟩)]⟩)]⟩
  user := none
  connections := [("conn1", ⟨"acme", []⟩)]
  answers := []
  defaults := .none

/-- A template with one trigger, which comes with an exec block of its own. -/
def templateWithExec (ref : String) : Value :=
  .obj [("workflow_id", .str "w"), ("version", .int 1), ("actions", .arr []),
    ("triggers", .arr [.obj [("local_id", .str "t"), ("toolkit_slug", .str "mail"),
      ("trigger_ref", .str ref), ("exec", .obj [("provider", .str "other"),
        ("trigger_slug", .str "x"), ("configuration", .obj []), ("connection_id", .str "own")])]])]

/-- The trigger of the template. -/
def triggerWithExec (ref : String) : Trigger :=
  ⟨"t", "mail", ref, none, [], none, none, none, none, some ⟨"other", "x", [], "own", none⟩, []⟩

/-- The exec block of a trigger that is in the catalog gives way to a grounded one. -/
theorem grounded_of_compile_mail :
    ∃ d, (Materializer.standard.compile (templateWithExec "new_mail") mailContext).document
      = some d ∧ d.Grounded mailContext ∧ d.triggers.length = 1 := by
  have one : (Materializer.standard.compile (templateWithExec "new_mail") mailContext).document.map
      (·.triggers.length) = some 1 := by decide +kernel
  obtain ⟨d, hd, length⟩ := Option.map_eq_some_iff.mp one
  obtain ⟨w, read, -, -, grounded⟩ := grounded_of_compile .standard _ mailContext d hd
  have template : Workflow.ofValue (Materializer.prepare (templateWithExec "new_mail") []).value
      = .ok ⟨"w", .integer 1, [triggerWithExec "new_mail"], [], none, none, []⟩ := by
    decide +kernel
  obtain rfl := Except.ok.inj (read.symm.trans template)
  refine ⟨d, hd, grounded.mpr ⟨?_, by simp⟩, length⟩
  intro t ht unresolved
  obtain rfl := List.mem_singleton.mp ht
  refine absurd ⟨⟨"acme", "mail", none, ⟨"m1", "new_mail", none, none, [], .none, []⟩⟩, "conn1",
    ⟨?_, ?_⟩, ?_⟩ unresolved
  · decide +kernel
  · intro delivery h
    cases h
  · exact ⟨⟨"acme", []⟩, List.mem_singleton_self _, rfl⟩

/-- A trigger that is in no catalog keeps the exec block it came with: a document is handed out in which the
    provider and the connection are the template's choice. -/
theorem compile_keeps_own_exec :
    ∃ d, (Materializer.standard.compile (templateWithExec "nothing") mailContext).document = some d ∧
      triggerWithExec "nothing" ∈ d.triggers ∧
      mailContext.index.find? .trigger "mail" "nothing" = none ∧ ¬d.Grounded mailContext := by
  have one : (Materializer.standard.compile (templateWithExec "nothing") mailContext).document.map
      (·.triggers) = some [triggerWithExec "nothing"] := by decide +kernel
  obtain ⟨d, hd, kept⟩ := Option.map_eq_some_iff.mp one
  have there : triggerWithExec "nothing" ∈ d.triggers := kept ▸ List.mem_singleton_self _
  have unknown : mailContext.index.find? .trigger "mail" "nothing" = none := by decide +kernel
  refine ⟨d, hd, there, unknown, fun grounded => ?_⟩
  obtain ⟨hit, exec, stands, -⟩ := grounded.triggers _ there
  exact absurd (stands.found.symm.trans unknown) (by simp)

end Flowgraph
