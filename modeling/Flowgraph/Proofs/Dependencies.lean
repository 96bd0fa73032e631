import Flowgraph.Proofs.Payloads

/-! What becomes of the dependencies of actions. A dependency is drawn to the node that the local id of its
    action stands for, which is that of the action unless a trigger or a later action has the same local
    id; and it is not drawn if control flow joins the two nodes on success already, also where that edge has
    a condition. -/

namespace Flowgraph

open Json

/-! ### The last declaration of a reference -/

theorem lastIndex?_eq_some_iff {names : List (Option String)} {ref : String} {i : Nat} :
    lastIndex? names ref = some i ↔ names[i]? = some (some ref) ∧ some ref ∉ names.drop (i + 1) := by
  induction names using List.reverseRecOn with
  | nil => simp [lastIndex?]
  | append_singleton names name ih =>
    rw [lastIndex?_concat]
    rcases Nat.lt_trichotomy i names.length with before | rfl | behind
    · rw [List.getElem?_append_left before, List.drop_append_of_le_length before, List.mem_append,
        List.mem_singleton]
      by_cases named : name = some ref
      · have later : names.length ≠ i := by omega
        simp [named, later]
      · have other : some ref ≠ name := fun same => named same.symm
        simp [named, other, ih]
    · have beyond : lastIndex? names ref ≠ some names.length := by
        intro found
        have := lastIndex?_lt found
        omega
      by_cases named : name = some ref
      · simp [named]
      · simp [named, beyond]
    · have beyond : lastIndex? names ref ≠ some i := by
        intro found
        have := lastIndex?_lt found
        omega
      have absent : (names ++ [name])[i]? = none := by
        simp only [List.getElem?_eq_none_iff, List.length_append, List.length_singleton]
        omega
      rw [absent]
      by_cases named : name = some ref
      · have other : names.length ≠ i := by omega
        simp [named, other]
      · simp [named, beyond]

theorem lastIndex?_eq_none_iff {names : List (Option String)} {ref : String} :
    lastIndex? names ref = none ↔ some ref ∉ names := by
  induction names using List.reverseRecOn with
  | nil => simp [lastIndex?]
  | append_singleton names name ih =>
    rw [lastIndex?_concat, List.mem_append, List.mem_singleton]
    by_cases named : name = some ref
    · simp [named]
    · have other : some ref ≠ name := fun same => named same.symm
      simp [named, other, ih]

namespace Workflow

/-- A reference stands for an action just if that is the last one of its name and no trigger has it. -/
theorem denoted?_eq_action_iff {w : Workflow} {ref : String} {i : Nat} :
    w.denoted? ref = some (nodeId "a" (i + 1)) ↔
      (∀ t ∈ w.triggers, t.localId ≠ ref) ∧ (w.actions[i]?.map (·.localId)) = some ref ∧
        ∀ b ∈ w.actions.drop (i + 1), b.localId ≠ ref := by
  have trigger : lastIndex? (w.declared .trigger) ref = none ↔ ∀ t ∈ w.triggers, t.localId ≠ ref := by
    simp [lastIndex?_eq_none_iff, declared]
  have action : lastIndex? (w.declared .action) ref = some i ↔
      (w.actions[i]?.map (·.localId)) = some ref ∧
        ∀ b ∈ w.actions.drop (i + 1), b.localId ≠ ref := by
    rw [lastIndex?_eq_some_iff]
    simp [declared, ← List.map_drop]
  rw [← trigger, ← action]
  constructor
  · intro stands
    constructor
    · cases known : lastIndex? (w.declared .trigger) ref with
      | none => rfl
      | some k =>
        have first : w.denoted? ref = some (nodeId "t" (k + 1)) := by
          simp [denoted?, RefKind.lookupOrder, known, RefKind.stem]
        cases @nodeId_stem_injective (.trigger, k) (.action, i)
          (Option.some.inj (first.symm.trans stands))
    · obtain ⟨kind, -, found⟩ := List.exists_of_findSome?_eq_some stands
      obtain ⟨k, known, same⟩ := Option.map_eq_some_iff.mp found
      cases @nodeId_stem_injective (kind, k) (.action, i) same
      exact known
  · rintro ⟨noTrigger, known⟩
    simp [denoted?, RefKind.lookupOrder, noTrigger, known, RefKind.stem]

/-- No trigger has the local id of an action, and no action behind it does. -/
def Unshadowed (w : Workflow) (i : Nat) (a : Action) : Prop :=
  (∀ t ∈ w.triggers, t.localId ≠ a.localId) ∧ ∀ b ∈ w.actions.drop (i + 1), b.localId ≠ a.localId

instance (w : Workflow) (i : Nat) (a : Action) : Decidable (w.Unshadowed i a) :=
  inferInstanceAs (Decidable (_ ∧ _))

theorem unshadowed_iff {w : Workflow} {i : Nat} {a : Action} (there : w.actions[i]? = some a) :
    w.Unshadowed i a ↔ w.denoted? a.localId = some (nodeId "a" (i + 1)) := by
  rw [denoted?_eq_action_iff, there]
  simp [Unshadowed]

/-- The local id of an action stands for some node. -/
theorem exists_denoted?_of_action {w : Workflow} {a : Action} (ha : a ∈ w.actions) :
    ∃ id, w.denoted? a.localId = some id := by
  have declared : some a.localId ∈ w.declared .action := List.mem_map_of_mem ha
  have known : lastIndex? (w.declared .action) a.localId ≠ none := by
    rw [ne_eq, lastIndex?_eq_none_iff, not_not]
    exact declared
  obtain ⟨k, known⟩ := Option.ne_none_iff_exists'.mp known
  rw [← Option.isSome_iff_exists, denoted?, List.findSome?_isSome_iff]
  exact ⟨.action, RefKind.action.mem_lookupOrder, by simp [known]⟩

/-- The two ends of every dependency. -/
theorem mem_dependencyEnds {rho : Resolver} {actions : List Action} {source target : String} :
    (source, target) ∈ dependencyEnds rho actions ↔
      ∃ b ∈ actions, rho b.localId = some target ∧ ∃ ref ∈ b.dependsOn.getD [], rho ref = some source := by
  simp [dependencyEnds]

/-- The dependencies of an action lead to its own node just if its local id stands for that. -/
theorem mem_dependencyEnds_own {w : Workflow} {i : Nat} {a : Action} {ref source : String}
    (there : w.actions[i]? = some a) (listed : ref ∈ a.dependsOn.getD [])
    (stands : w.denoted? ref = some source) :
    (source, nodeId "a" (i + 1)) ∈ dependencyEnds w.denoted? w.actions ↔ w.Unshadowed i a := by
  rw [mem_dependencyEnds]
  constructor
  · -- Whichever action it is that leads here, it has the local id of this one.
    rintro ⟨b, -, own, -⟩
    obtain ⟨noTrigger, named, noAction⟩ := denoted?_eq_action_iff.mp own
    have same : a.localId = b.localId := by simpa [there] using named
    exact ⟨same ▸ noTrigger, same ▸ noAction⟩
  · intro unshadowed
    exact ⟨a, List.mem_of_getElem? there, (unshadowed_iff there).mp unshadowed, ref, listed, stands⟩

end Workflow

/-! ### Edges of dependencies -/

/-- Two nodes are joined for every success just if control flow does so, or if they are the ends of a
    dependency and control flow does not join them on success at all. -/
theorem Workflow.exists_unconditional_iff {w : Workflow} {rho : Resolver} {source target : String} :
    (∃ k ∈ w.links rho, k.onSuccess source target ∧ k.condition = none) ↔
      (∃ k ∈ w.flow.links rho, k.onSuccess source target ∧ k.condition = none) ∨
        ((source, target) ∈ dependencyEnds rho w.actions ∧
          ∀ k ∈ w.flow.links rho, ¬k.onSuccess source target) := by
  simp only [Workflow.links, List.mem_append]
  constructor
  · rintro ⟨k, hk | hk, joins, free⟩
    · exact .inl ⟨k, hk, joins, free⟩
    · obtain ⟨⟨s, t⟩, dependent, fresh, rfl⟩ := mem_dependencyLinks.mp hk
      simp only [Link.onSuccess, decide_eq_true_eq] at joins
      obtain ⟨rfl, rfl, -⟩ := joins
      exact .inr ⟨dependent, fresh⟩
  · rintro (⟨k, hk, joins⟩ | ⟨dependent, fresh⟩)
    · exact ⟨k, .inl hk, joins⟩
    · have drawn := mem_dependencyLinks.mpr ⟨(source, target), dependent, fresh, rfl⟩
      exact ⟨_, .inr drawn, by simp [Link.onSuccess], rfl⟩

/-- The ends of a dependency are joined on success in any case, if not whatever the values are. -/
theorem Workflow.exists_onSuccess {w : Workflow} {rho : Resolver} {source target : String}
    (dependent : (source, target) ∈ dependencyEnds rho w.actions) :
    ∃ k ∈ w.links rho, k.onSuccess source target := by
  by_cases joined : ∃ k ∈ w.flow.links rho, k.onSuccess source target
  · obtain ⟨k, hk, joins⟩ := joined
    exact ⟨k, List.mem_append_left _ hk, joins⟩
  · obtain ⟨k, hk, joins, -⟩ := exists_unconditional_iff.mpr
      (.inr ⟨dependent, fun k hk joins => joined ⟨k, hk, joins⟩⟩)
    exact ⟨k, hk, joins⟩

/-- The node of an action stands behind those of the triggers and of the actions before it. -/
theorem Workflow.Runnable.getElem?_entityNodes {w : Workflow} (hw : w.Runnable)
    (catalog : Option CatalogIndex) {i : Nat} {a : Action} (there : w.actions[i]? = some a) :
    ∃ exec, a.exec = some exec ∧
      (w.entityNodes catalog)[w.triggers.length + i]? = some (actionNode catalog a exec i) := by
  have triggers : w.runnableTriggers.length = w.triggers.length := by
    rw [← hw.map_runnableTriggers, List.length_map]
  have action : w.runnableActions[i]?.map (·.1) = some a := by
    rw [← List.getElem?_map, hw.map_runnableActions, there]
  obtain ⟨⟨_, exec⟩, found, rfl⟩ := Option.map_eq_some_iff.mp action
  refine ⟨exec, ?_, ?_⟩
  · obtain ⟨b, -, made⟩ := List.mem_filterMap.mp (List.mem_of_getElem? found)
    obtain ⟨e, own, same⟩ := Option.map_eq_some_iff.mp made
    cases same
    exact own
  · rw [entityNodes, List.getElem?_append_right (by simp [triggers])]
    simp [triggers, found]

/-- The edges of a graph are its links. -/
theorem Dag.MadeOf.exists_edge_iff {d : Dag} {w : Workflow} {catalog : Option CatalogIndex}
    (made : d.MadeOf w catalog) {P : Link → Prop} :
    (∃ e ∈ d.edges, P e.link) ↔ ∃ k ∈ w.links w.denoted?, P k := by
  rw [← made.edges]
  simp

namespace Lowerer

/-- What becomes of a dependency. The node that the local id of the action stands for is joined to the
    dependency on success. The node of the action itself is, whatever the values are, just if control flow
    does so, or if the local id is not shadowed and control flow does not join the two on success at
    all. -/
theorem dependency_edge_iff (l : Lowerer) (executable : Value) (w : Workflow) (d : Dag)
    (read : Workflow.ofValue executable = .ok w)
    (compiled : (l.compile executable).document = some d) (i : Nat) (a : Action) (ref source : String)
    (there : w.actions[i]? = some a) (listed : ref ∈ a.dependsOn.getD [])
    (stands : w.denoted? ref = some source) :
    (∃ target, w.denoted? a.localId = some target ∧
      ∃ e ∈ d.edges, e.source = source ∧ e.target = target ∧ e.when = "success") ∧
    ∃ n exec, a.exec = some exec ∧ d.nodes[w.triggers.length + i]? = some n ∧
      n.core = (actionNode l.catalog a exec i).core ∧
      ((∃ e ∈ d.edges, (e.source = source ∧ e.target = n.id ∧ e.when = "success") ∧ e.condition = none) ↔
        (∃ k ∈ w.flow.links w.denoted?, k.onSuccess source n.id ∧ k.condition = none) ∨
          (w.Unshadowed i a ∧ ∀ k ∈ w.flow.links w.denoted?, ¬k.onSuccess source n.id)) := by
  obtain ⟨w', accepted, made⟩ := madeOf_of_compile compiled
  obtain rfl : w' = w := Except.ok.inj (accepted.read.symm.trans read)
  constructor
  · obtain ⟨target, known⟩ := Workflow.exists_denoted?_of_action (List.mem_of_getElem? there)
    have dependent : (source, target) ∈ dependencyEnds w'.denoted? w'.actions :=
      Workflow.mem_dependencyEnds.mpr ⟨a, List.mem_of_getElem? there, known, ref, listed, stands⟩
    obtain ⟨e, he, joins⟩ := made.exists_edge_iff.mpr (Workflow.exists_onSuccess dependent)
    exact ⟨target, known, e, he, of_decide_eq_true joins⟩
  · obtain ⟨exec, own, placed⟩ := accepted.runnable.getElem?_entityNodes l.catalog there
    have node : d.nodes[w'.triggers.length + i]?.map Node.core
        = some (actionNode l.catalog a exec i).core := by
      rw [← List.getElem?_map, made.nodes, List.getElem?_map, List.getElem?_append_left, placed]
      · rfl
      · exact (List.getElem?_eq_some_iff.mp placed).1
    obtain ⟨n, found, core⟩ := Option.map_eq_some_iff.mp node
    have id : n.id = nodeId "a" (i + 1) := congrArg Prod.fst core
    refine ⟨n, exec, own, found, core, ?_⟩
    rw [id, ← Workflow.mem_dependencyEnds_own there listed stands, ← Workflow.exists_unconditional_iff,
      ← made.exists_edge_iff]
    refine exists_congr fun e => and_congr_right fun _ => and_congr_left fun _ => ?_
    exact decide_eq_true_iff.symm

/-- A document whose second action shares its local id with the first. The first depends on the trigger and
    has a route from it, the second depends on the trigger twice. -/
def namesakes : Value :=
  .obj [
    ("workflow_id", .str "w"), ("version", .int 1), ("triggers", .arr [readyTrigger "start"]),
    ("actions", .arr [readyAction "work" [("depends_on", .arr [.str "start"])],
      readyAction "work" [("depends_on", .arr [.str "start", .str "nowhere", .str "start"])]]),
    ("flow_control", .obj [("routes", .arr [.obj [("from_ref", .str "start"), ("to_ref", .str "work"),
      ("when", .str "failure")]])])]

theorem dependency_edge_namesakes :
    ∃ w d a n, Workflow.ofValue namesakes = .ok w ∧ (standard.compile namesakes).document = some d ∧
      w.actions[1]? = some a ∧ "start" ∈ a.dependsOn.getD [] ∧ w.denoted? "start" = some "t1" ∧
      d.nodes[2]? = some n ∧ n.id = "a2" ∧
      ∃ e ∈ d.edges, (e.source = "t1" ∧ e.target = n.id ∧ e.when = "success") ∧ e.condition = none := by
  have facts : (Workflow.ofValue namesakes).toOption.bind (fun w => w.actions[1]?.map fun a =>
      decide (w.triggers.length = 1 ∧ "start" ∈ a.dependsOn.getD [] ∧ w.denoted? "start" = some "t1" ∧
        w.Unshadowed 1 a ∧ ∀ k ∈ w.flow.links w.denoted?, ¬k.onSuccess "t1" "a2")) = some true := by
    decide +kernel
  have lowered : (standard.compile namesakes).document.isSome = true := by decide +kernel
  obtain ⟨d, compiled⟩ := Option.isSome_iff_exists.mp lowered
  obtain ⟨w, read, facts⟩ := Option.bind_eq_some_iff.mp facts
  obtain ⟨a, there, facts⟩ := Option.map_eq_some_iff.mp facts
  obtain ⟨one, listed, stands, unshadowed, apart⟩ := of_decide_eq_true facts
  have read := eq_ok_of_toOption read
  obtain ⟨-, n, exec, -, found, core, edge⟩ := dependency_edge_iff standard namesakes w d read compiled 1 a
    "start" "t1" there listed stands
  have id : n.id = "a2" := congrArg Prod.fst core
  rw [one] at found
  exact ⟨w, d, a, n, read, compiled, there, listed, stands, found, id,
    edge.mpr (.inr ⟨unshadowed, id ▸ apart⟩)⟩

/-- A route with a condition from a trigger to an action that depends on it. -/
def guardedStep : Value :=
  .obj [
    ("workflow_id", .str "w"), ("version", .int 1), ("triggers", .arr [readyTrigger "start"]),
    ("actions", .arr [readyAction "work" [("depends_on", .arr [.str "start"])]]),
    ("flow_control", .obj [("routes", .arr [.obj [("from_ref", .str "start"), ("to_ref", .str "work"),
      ("condition", .str "x > 2")]])])]

/-- An action that has the local id of a trigger and depends on another trigger. -/
def shadowedStep : Value :=
  .obj [
    ("workflow_id", .str "w"), ("version", .int 1),
    ("triggers", .arr [readyTrigger "start", readyTrigger "work"]),
    ("actions", .arr [readyAction "work" [("depends_on", .arr [.str "start"])]])]

/-- The first action of a document depends on what is called `start`, and no edge leads from there to the node
    of the action on every success. -/
def MissesDependency (executable : Value) : Prop :=
  ∃ w d a source n, Workflow.ofValue executable = .ok w ∧
    (standard.compile executable).document = some d ∧ w.actions[0]? = some a ∧
    "start" ∈ a.dependsOn.getD [] ∧ w.denoted? "start" = some source ∧
    d.nodes[w.triggers.length + 0]? = some n ∧
    ¬∃ e ∈ d.edges, (e.source = source ∧ e.target = n.id ∧ e.when = "success") ∧ e.condition = none

theorem missesDependency_of {executable : Value}
    (facts : (Workflow.ofValue executable).toOption.bind (fun w =>
      (standard.compile executable).document.bind fun d => w.actions[0]?.bind fun a =>
        (w.denoted? "start").bind fun source => d.nodes[w.triggers.length + 0]?.map fun n =>
          decide ("start" ∈ a.dependsOn.getD [] ∧ ¬∃ e ∈ d.edges,
            (e.source = source ∧ e.target = n.id ∧ e.when = "success") ∧ e.condition = none))
      = some true) : MissesDependency executable := by
  obtain ⟨w, read, facts⟩ := Option.bind_eq_some_iff.mp facts
  obtain ⟨d, compiled, facts⟩ := Option.bind_eq_some_iff.mp facts
  obtain ⟨a, there, facts⟩ := Option.bind_eq_some_iff.mp facts
  obtain ⟨source, stands, facts⟩ := Option.bind_eq_some_iff.mp facts
  obtain ⟨n, found, facts⟩ := Option.map_eq_some_iff.mp facts
  obtain ⟨listed, missing⟩ := of_decide_eq_true facts
  exact ⟨w, d, a, source, n, eq_ok_of_toOption read, compiled, there, listed, stands, found, missing⟩

/-- A dependency gives way to an edge with a condition, and leads to a trigger that has the local id of its
    action instead of the action. -/
theorem dependency_edge_missing : MissesDependency guardedStep ∧ MissesDependency shadowedStep :=
  ⟨missesDependency_of (by decide +kernel), missesDependency_of (by decide +kernel)⟩

end Lowerer

end Flowgraph
