import Flowgraph.Proofs.Renaming
import Mathlib.Data.List.Perm.Basic

/-! The order of declarations. Where all references differ, the lists of a workflow may be put into any order:
    the nodes get other numbers, and otherwise the graph is the same. -/

namespace Flowgraph

open Json

/-! ### Items and their new numbers -/

/-- The item with number `i` has number `σ i` in the other list. -/
def Renumbers (σ : Nat → Nat) (xs ys : List α) : Prop :=
  (xs.zipIdx.map fun x => (x.1, σ x.2)).Perm ys.zipIdx

namespace Renumbers

theorem exists_of_perm {xs ys : List α} (h : xs.Perm ys) : ∃ σ, Renumbers σ xs ys := by
  have places : List.Forall₂ (fun x z => x = z.1) ys ys.zipIdx := by
    rw [List.forall₂_iff_get]
    simp
  obtain ⟨zs, items, perm⟩ := List.perm_comp_forall₂ h places
  refine ⟨fun i => ((zs[i]?).map Prod.snd).getD 0, ?_⟩
  have same : (xs.zipIdx.map fun x => (x.1, ((zs[x.2]?).map Prod.snd).getD 0)) = zs := by
    refine List.ext_getElem (by simpa using items.length_eq) fun i hi hi' => ?_
    have inside : i < xs.length := by simpa using hi
    have here : xs[i] = zs[i].1 := (List.forall₂_iff_get.mp items).2 i inside hi'
    simp [hi', here]
  rw [Renumbers, same]
  exact perm

variable {σ : Nat → Nat} {xs ys : List α} (h : Renumbers σ xs ys)
include h

theorem map (g : α → β) : Renumbers σ (xs.map g) (ys.map g) := by
  have mapped := List.Perm.map (Prod.map g id) h
  rw [List.map_map] at mapped
  rw [Renumbers, List.zipIdx_map, List.zipIdx_map, List.map_map]
  exact mapped

theorem perm_map (F : α × Nat → β) :
    (xs.zipIdx.map fun x => F (x.1, σ x.2)).Perm (ys.zipIdx.map F) := by
  have mapped := List.Perm.map F h
  rwa [List.map_map] at mapped

theorem perm_flatMap (F : α × Nat → List β) :
    (xs.zipIdx.flatMap fun x => F (x.1, σ x.2)).Perm (ys.zipIdx.flatMap F) := by
  have mapped := List.Perm.flatMap_right F h
  rwa [List.flatMap_map] at mapped

end Renumbers

/-! ### References -/

namespace Workflow

/-- All references that a workflow declares. -/
def refs (w : Workflow) : List String :=
  RefKind.lookupOrder.flatMap fun kind => (w.declared kind).flatMap Option.toList

/-- All references with their nodes. -/
def declarations (w : Workflow) : RefIndex :=
  RefKind.lookupOrder.flatMap fun kind => entriesOf kind (w.declared kind)

theorem map_ref_entriesOf (kind : RefKind) (names : List (Option String)) :
    (entriesOf kind names).map (·.ref) = names.flatMap Option.toList := by
  have each (name : Option String) (node : String) :
      (name.toList.map fun ref => (⟨kind, ref, node⟩ : RefEntry)).map (·.ref) = name.toList := by
    cases name <;> rfl
  rw [entriesOf, List.map_flatMap]
  simp only [each]
  conv_rhs => rw [← List.zipIdx_map_fst 0 names, List.flatMap_map]

theorem map_ref_declarations (w : Workflow) : w.declarations.map (·.ref) = w.refs := by
  simp only [declarations, refs, List.map_flatMap, map_ref_entriesOf]

theorem kind_of_mem_entriesOf {kind : RefKind} {names : List (Option String)} {e : RefEntry}
    (h : e ∈ entriesOf kind names) : e.kind = kind := by
  obtain ⟨x, -, he⟩ := List.mem_flatMap.mp h
  obtain ⟨ref, -, rfl⟩ := List.mem_map.mp he
  rfl

/-- Where all references differ, each stands for the node it is declared for. -/
theorem denoted?_eq_some_iff {w : Workflow} (distinct : w.refs.Nodup) {ref id : String} :
    w.denoted? ref = some id ↔ ∃ e ∈ w.declarations, e.ref = ref ∧ e.node = id := by
  have looked : w.denoted? ref = RefKind.lookupOrder.findSome? fun kind =>
      RefIndex.inKind? (entriesOf kind (w.declared kind)) ref kind := by
    simp only [denoted?, inKind?_entriesOf]
  have found {id : String} (h : w.denoted? ref = some id) :
      ∃ e ∈ w.declarations, e.ref = ref ∧ e.node = id := by
    rw [looked] at h
    obtain ⟨kind, order, there⟩ := List.exists_of_findSome?_eq_some h
    obtain ⟨e, he, rfl⟩ := Option.map_eq_some_iff.mp there
    have named : e.kind = kind ∧ e.ref = ref := by simpa using List.find?_some he
    exact ⟨e, List.mem_flatMap.mpr ⟨kind, order, List.mem_reverse.mp (List.mem_of_find?_eq_some he)⟩,
      named.2, rfl⟩
  refine ⟨found, ?_⟩
  rintro ⟨e, he, rfl, rfl⟩
  obtain ⟨kind, order, mem⟩ := List.mem_flatMap.mp he
  have some_found : (w.denoted? e.ref).isSome := by
    rw [looked, List.findSome?_isSome_iff]
    refine ⟨kind, order, ?_⟩
    rw [RefIndex.inKind?, Option.isSome_map, List.find?_isSome]
    exact ⟨e, List.mem_reverse.mpr mem, by simp [kind_of_mem_entriesOf mem]⟩
  obtain ⟨id, there⟩ := Option.isSome_iff_exists.mp some_found
  obtain ⟨e', he', same, rfl⟩ := found there
  rw [← map_ref_declarations] at distinct
  rw [there, List.inj_on_of_nodup_map distinct he' he same]

end Workflow

/-! ### Workflows in another order -/

/-- Names under which the one ids are the others are given one to one. -/
theorem bijOn_of_perm {f : String → String} {ids ids' : List String} (distinct : ids'.Nodup)
    (same : (ids.map f).Perm ids') : Set.BijOn f {id | id ∈ ids} {id | id ∈ ids'} := by
  refine ⟨fun id hid => same.mem_iff.mp (List.mem_map_of_mem hid), ?_, fun id hid => ?_⟩
  · intro id hid id' hid' names
    exact List.inj_on_of_nodup_map (same.nodup_iff.mpr distinct) hid hid' names
  · obtain ⟨old, there, renamed⟩ := List.mem_map.mp (same.mem_iff.mpr hid)
    exact ⟨old, there, renamed⟩

/-- The lists of the one are those of the other in any order; nothing else differs. -/
@[mk_iff]
structure Workflow.Rearranges (w w' : Workflow) : Prop where
  triggers : w.triggers.Perm w'.triggers
  actions : w.actions.Perm w'.actions
  conditions : w.flow.conditions.Perm w'.flow.conditions
  parallels : w.flow.parallels.Perm w'.flow.parallels
  loops : w.flow.loops.Perm w'.flow.loops
  routes : w.flow.routes.Perm w'.flow.routes
  others : { w with triggers := w'.triggers, actions := w'.actions, flowControl := w'.flowControl }
    = w'

instance (w w' : Workflow) : Decidable (w.Rearranges w') :=
  decidable_of_iff' _ (Workflow.rearranges_iff w w')

/-- New names for the nodes of a stem: that with number `i` gets number `σ i`. -/
def Carries (f : String → String) (stem : String) (σ : Nat → Nat) : Prop :=
  ∀ i, f (nodeId stem (i + 1)) = nodeId stem (σ i + 1)

/-- Names for the nodes of the one by which they become the nodes of the other. -/
structure Workflow.Follows (f : String → String) (w w' : Workflow) : Prop where
  triggers : ∃ σ, Renumbers σ w.runnableTriggers w'.runnableTriggers ∧ Carries f "t" σ
  actions : ∃ σ, Renumbers σ w.runnableActions w'.runnableActions ∧ Carries f "a" σ
  conditions : ∃ σ, Renumbers σ w.flow.conditions w'.flow.conditions ∧ Carries f "g" σ
  parallels : ∃ σ, Renumbers σ w.flow.parallels w'.flow.parallels ∧ Carries f "par" σ ∧
    Carries f "join" σ
  loops : ∃ σ, Renumbers σ w.flow.loops w'.flow.loops ∧ Carries f "loop" σ

namespace Workflow

variable {f : String → String} {w w' : Workflow}

/-- The ids of the nodes do not depend on what references stand for. -/
theorem Runnable.map_id_nodes (hw : w.Runnable) (catalog : Option CatalogIndex) (rho : Resolver) :
    (w.entityNodes catalog ++ w.flow.nodes rho).map (·.id) = w.nodeIds := by
  have keys : (w.entityNodes catalog ++ w.flow.nodes rho).map Node.key = w.nodeKeys := by
    rw [List.map_append, hw.map_key_entityNodes, FlowControl.map_key_nodes, nodeKeys]
    simp
  rw [nodeIds, ← keys, List.map_map]
  rfl

theorem Rearranges.runnable (h : w.Rearranges w') : w.Runnable ↔ w'.Runnable := by
  constructor
  · intro all
    exact ⟨fun t ht => all.triggers t (h.triggers.mem_iff.mpr ht),
      fun a ha => all.actions a (h.actions.mem_iff.mpr ha)⟩
  · intro all
    exact ⟨fun t ht => all.triggers t (h.triggers.mem_iff.mp ht),
      fun a ha => all.actions a (h.actions.mem_iff.mp ha)⟩

/-- New numbers by kind; a join has the number of its block. -/
def renumbering (triggers actions conditions parallels loops : Nat → Nat) : RefKind → Nat → Nat
  | .trigger => triggers
  | .action => actions
  | .gateway => conditions
  | .parallel => parallels
  | .join => parallels
  | .loop => loops

/-- Each list gives its nodes new numbers, and ids of different kinds never meet. -/
theorem Rearranges.exists_follows (h : w.Rearranges w') : ∃ f, Follows f w w' := by
  obtain ⟨triggers, ht⟩ := Renumbers.exists_of_perm (h.triggers.filterMap fun t =>
    t.exec.map fun e => (t, e))
  obtain ⟨actions, ha⟩ := Renumbers.exists_of_perm (h.actions.filterMap fun a =>
    a.exec.map fun e => (a, e))
  obtain ⟨conditions, hc⟩ := Renumbers.exists_of_perm h.conditions
  obtain ⟨parallels, hp⟩ := Renumbers.exists_of_perm h.parallels
  obtain ⟨loops, hl⟩ := Renumbers.exists_of_perm h.loops
  let number := renumbering triggers actions conditions parallels loops
  let f := Function.extend (fun m : RefKind × Nat => nodeId m.1.stem (m.2 + 1))
    (fun m => nodeId m.1.stem (number m.1 m.2 + 1)) fun id => id
  have carries (kind : RefKind) : Carries f kind.stem (number kind) := fun i =>
    nodeId_stem_injective.extend_apply _ _ (kind, i)
  exact ⟨f, ⟨triggers, ht, carries .trigger⟩, ⟨actions, ha, carries .action⟩,
    ⟨conditions, hc, carries .gateway⟩, ⟨parallels, hp, carries .parallel, carries .join⟩,
    ⟨loops, hl, carries .loop⟩⟩

namespace Follows

variable (h : Follows f w w')
include h

theorem declared (hw : w.Runnable) (hw' : w'.Runnable) (kind : RefKind) :
    ∃ σ, Renumbers σ (w.declared kind) (w'.declared kind) ∧ Carries f kind.stem σ := by
  cases kind with
  | trigger =>
    obtain ⟨σ, items, carries⟩ := h.triggers
    refine ⟨σ, ?_, carries⟩
    have triggers := (items.map Prod.fst).map fun t => some t.localId
    rwa [hw.map_runnableTriggers, hw'.map_runnableTriggers] at triggers
  | action =>
    obtain ⟨σ, items, carries⟩ := h.actions
    refine ⟨σ, ?_, carries⟩
    have actions := (items.map Prod.fst).map fun a => some a.localId
    rwa [hw.map_runnableActions, hw'.map_runnableActions] at actions
  | gateway =>
    obtain ⟨σ, items, carries⟩ := h.conditions
    exact ⟨σ, items.map _, carries⟩
  | parallel =>
    obtain ⟨σ, items, carries, -⟩ := h.parallels
    exact ⟨σ, items.map _, carries⟩
  | join =>
    obtain ⟨σ, items, -, carries⟩ := h.parallels
    exact ⟨σ, items.map _, carries⟩
  | loop =>
    obtain ⟨σ, items, carries⟩ := h.loops
    exact ⟨σ, items.map _, carries⟩

/-- The same references are declared, for the renamed nodes. -/
theorem declarations (hw : w.Runnable) (hw' : w'.Runnable) :
    (w.declarations.map fun e => { e with node := f e.node }).Perm w'.declarations := by
  rw [Workflow.declarations, Workflow.declarations, List.map_flatMap]
  refine List.Perm.flatMap_left _ fun kind _ => ?_
  obtain ⟨σ, names, carries⟩ := h.declared hw hw' kind
  have renamed := names.perm_flatMap fun x =>
    x.1.toList.map fun ref => (⟨kind, ref, nodeId kind.stem (x.2 + 1)⟩ : RefEntry)
  simp only [entriesOf, List.map_flatMap, List.map_map, Function.comp_def, carries _]
  exact renamed

/-- A reference stands for the renamed node. -/
theorem denoted? (hw : w.Runnable) (hw' : w'.Runnable) (distinct : w.refs.Nodup) :
    w'.denoted? = Resolver.rename f w.denoted? := by
  have same := h.declarations hw hw'
  have distinct' : w'.refs.Nodup := by
    have refs := same.map (·.ref)
    rw [List.map_map, map_ref_declarations] at refs
    refine refs.nodup_iff.mp ?_
    rwa [← map_ref_declarations] at distinct
  funext ref
  refine Option.ext fun id => ?_
  rw [Resolver.rename, Option.map_eq_some_iff, denoted?_eq_some_iff distinct']
  simp only [denoted?_eq_some_iff distinct, ← same.mem_iff, List.mem_map]
  constructor
  · rintro ⟨_, ⟨e, he, rfl⟩, named, rfl⟩
    exact ⟨e.node, ⟨e, he, named, rfl⟩, rfl⟩
  · rintro ⟨_, ⟨e, he, named, rfl⟩, rfl⟩
    exact ⟨_, ⟨e, he, rfl⟩, named, rfl⟩

/-- The nodes of triggers and actions come out renamed. -/
theorem entityNodes (catalog : Option CatalogIndex) :
    ((w.entityNodes catalog).map (Node.rename f)).Perm (w'.entityNodes catalog) := by
  obtain ⟨σ, triggers, carries⟩ := h.triggers
  obtain ⟨τ, actions, carries'⟩ := h.actions
  have trigger (x : (Trigger × TriggerExec) × Nat) :
      (triggerNode catalog x.1.1 x.1.2 x.2).rename f
        = triggerNode catalog x.1.1 x.1.2 (σ x.2) := by
    change { triggerNode catalog x.1.1 x.1.2 (σ x.2) with id := f (nodeId "t" (x.2 + 1)) } = _
    rw [carries x.2]
    rfl
  have action (x : (Action × ActionExec) × Nat) :
      (actionNode catalog x.1.1 x.1.2 x.2).rename f
        = actionNode catalog x.1.1 x.1.2 (τ x.2) := by
    change { actionNode catalog x.1.1 x.1.2 (τ x.2) with id := f (nodeId "a" (x.2 + 1)) } = _
    rw [carries' x.2]
    rfl
  simp only [Workflow.entityNodes, List.map_append, List.map_map, Function.comp_def, trigger, action]
  exact (triggers.perm_map fun x => triggerNode catalog x.1.1 x.1.2 x.2).append
    (actions.perm_map fun x => actionNode catalog x.1.1 x.1.2 x.2)

/-- The nodes of blocks come out renamed. -/
theorem flowNodes (rho : Resolver) :
    ((w.flow.nodes rho).map (Node.rename f)).Perm (w'.flow.nodes (rho.rename f)) := by
  obtain ⟨σ, conditions, gateway⟩ := h.conditions
  obtain ⟨τ, parallels, parallel, join⟩ := h.parallels
  obtain ⟨υ, loops, loop⟩ := h.loops
  have block (id label : String) (data : NodeData) :
      (blockNode id label data).rename f = blockNode (f id) label (data.rename f) := rfl
  have meet (start : String) : NodeData.rename f (.join ⟨.all, start⟩) = .join ⟨.all, f start⟩ := rfl
  simp only [FlowControl.nodes, List.map_append, List.map_map, List.map_flatMap, Function.comp_def,
    List.map_cons, List.map_nil, block, meet, ← Conditional.payload_rename,
    ← ParallelBlock.payload_rename, ← loopNode_rename, ← Resolver.bind_rename, gateway _,
    parallel _, join _, loop _]
  refine .append (.append ?_ ?_) ?_
  · exact conditions.perm_map fun x =>
      blockNode (nodeId "g" (x.2 + 1)) "If" (x.1.payload (rho.rename f))
  · exact parallels.perm_flatMap fun x =>
      [blockNode (nodeId "par" (x.2 + 1)) "Fan-out"
        (x.1.payload (rho.rename f) (nodeId "join" (x.2 + 1))),
       blockNode (nodeId "join" (x.2 + 1)) "Join" (.join ⟨.all, nodeId "par" (x.2 + 1)⟩)]
  · exact loops.perm_map fun x =>
      loopNode x.1 (nodeId "loop" (x.2 + 1)) (x.1.bodyRef.bind (rho.rename f))

/-- The links of blocks and routes come out renamed. -/
theorem flowLinks (routes : w.flow.routes.Perm w'.flow.routes) (rho : Resolver) :
    ((w.flow.links rho).map (Link.rename f)).Perm (w'.flow.links (rho.rename f)) := by
  obtain ⟨σ, conditions, gateway⟩ := h.conditions
  obtain ⟨τ, parallels, parallel, join⟩ := h.parallels
  obtain ⟨υ, loops, loop⟩ := h.loops
  simp only [FlowControl.links, List.map_append, List.map_flatMap, List.map_filterMap,
    ← Conditional.links_rename, ← ParallelBlock.links_rename, ← LoopBlock.links_rename, gateway _,
    parallel _, join _, loop _, ← Route.link?_rename]
  refine .append (.append (.append ?_ ?_) ?_) (routes.filterMap _)
  · exact conditions.perm_flatMap fun x => x.1.links (rho.rename f) (nodeId "g" (x.2 + 1))
  · exact parallels.perm_flatMap fun x =>
      x.1.links (rho.rename f) (nodeId "par" (x.2 + 1)) (nodeId "join" (x.2 + 1))
  · exact loops.perm_flatMap fun x => x.1.links (rho.rename f) (nodeId "loop" (x.2 + 1))

/-- The nodes of the one are those of the other under their new names. -/
theorem nodeIds (hw : w.Runnable) (hw' : w'.Runnable) :
    (w.nodeIds.map f).Perm w'.nodeIds := by
  have names := ((h.entityNodes none).append (h.flowNodes fun _ => none)).map (·.id)
  have renamed : (·.id) ∘ Node.rename f = f ∘ (·.id) := rfl
  rwa [← List.map_append, List.map_map, renamed, ← List.map_map, hw.map_id_nodes,
    hw'.map_id_nodes] at names

/-- All links come out renamed. -/
theorem links (rearranged : w.Rearranges w') (hw : w.Runnable) (distinct : w.refs.Nodup) :
    ((w.links w.denoted?).map (Link.rename f)).Perm (w'.links w'.denoted?) := by
  have hw' := rearranged.runnable.mp hw
  have inj := (bijOn_of_perm w'.nodup_nodeIds (h.nodeIds hw hw')).injOn
  have drawn := h.flowLinks rearranged.routes w.denoted?
  have ends : ((dependencyEnds w.denoted? w.actions).map fun e => (f e.1, f e.2)).Perm
      (dependencyEnds (Resolver.rename f w.denoted?) w'.actions) := by
    rw [← dependencyEnds_rename]
    exact rearranged.actions.flatMap_right _
  rw [h.denoted? hw hw' distinct, Workflow.links, Workflow.links, List.map_append]
  refine drawn.append (dependencyLinks_rename inj (fun k hk => ?_) ?_ drawn ends)
  · exact links_within w.denoted?_into k (List.mem_append_left _ hk)
  · exact dependencyEnds_within w.denoted?_into w.actions

end Follows

end Workflow

/-! ### Graphs with other names -/

/-- The one graph is the other with new names for its nodes: no two get the same name, the renamed nodes are
    the nodes of the other but for their positions, the renamed edges are its edges but for their numbers,
    and all else is the same. -/
structure Dag.Renames (f : String → String) (d d' : Dag) : Prop where
  bijective : Set.BijOn f {id | id ∈ d.nodes.map (·.id)} {id | id ∈ d'.nodes.map (·.id)}
  nodes : (d.nodes.map fun n => (n.rename f).unplaced).Perm (d'.nodes.map Node.unplaced)
  edges : (d.edges.map fun e => e.link.rename f).Perm (d'.edges.map Edge.link)
  others : { d with nodes := d'.nodes, edges := d'.edges } = d'

namespace Lowerer

/-- The answer to an accepted document: a graph, unless a route leads nowhere or the hints for showing it are
    malformed. -/
theorem Accepts.document_compile {executable : Value} {w : Workflow} (l : Lowerer)
    (accepted : Accepts executable w) :
    (l.compile executable).document
      = if w.flow.routes.all fun r => (r.link? w.denoted?).isSome then
          l.uiHints.toOption.map (l.assemble w
            (l.layout.place (w.entityNodes l.catalog ++ w.flow.nodes w.denoted?))
            (numberLinks (w.links w.denoted?)))
        else none := by
  have graph := l.value_graph w
  rw [funext accepted.runnable.lookup?_eq_denoted?] at graph
  cases shown : l.uiHints with
  | error cause =>
    rw [accepted.compile_eq, lower, graph]
    split <;> simp [shown, malformed, Except.toOption]
  | ok ui =>
    split at graph
    · rename_i complete
      rw [(accepted.compile_of_graph shown graph).1, if_pos complete]
      rfl
    · rename_i broken
      simp [accepted.compile_eq, lower, graph, broken]

/-- A document in which not everything can be run is not answered with a graph. -/
theorem document_of_not_runnable {executable : Value} {w : Workflow} (l : Lowerer)
    (read : Workflow.ofValue executable = .ok w) (idle : ¬w.Runnable) :
    (l.compile executable).document = none := by
  refine Option.eq_none_iff_forall_ne_some.mpr fun d built => idle ?_
  obtain ⟨w', nodes, edges, ui, accepted, -⟩ := exists_of_compile_eq_some built
  obtain rfl : w' = w := Except.ok.inj (accepted.read.symm.trans read)
  exact accepted.runnable

/-- What the graph says besides its nodes and edges is not read off the lists. -/
theorem assemble_rearranged (l : Lowerer) {w w' : Workflow} (rearranged : w.Rearranges w')
    (nodes : List Node) (edges : List Edge) (ui : UiHints) :
    l.assemble w nodes edges ui = l.assemble w' nodes edges ui := by
  have same (g : Workflow → Dag)
      (unread : ∀ triggers actions flowControl, g { w with
        triggers := triggers, actions := actions, flowControl := flowControl } = g w) :
      g w = g w' := by
    rw [← unread w'.triggers w'.actions w'.flowControl, rearranged.others]
  exact same (l.assemble · nodes edges ui) fun _ _ _ => rfl

/-- The graph of the rearranged workflow is the graph of the workflow, renamed. -/
theorem renames_assemble (l : Lowerer) (ui : UiHints) {w w' : Workflow} {f : String → String}
    (rearranged : w.Rearranges w') (follows : Workflow.Follows f w w') (hw : w.Runnable)
    (distinct : w.refs.Nodup) :
    (l.assemble w (l.layout.place (w.entityNodes l.catalog ++ w.flow.nodes w.denoted?))
      (numberLinks (w.links w.denoted?)) ui).Renames f
    (l.assemble w' (l.layout.place (w'.entityNodes l.catalog ++ w'.flow.nodes w'.denoted?))
      (numberLinks (w'.links w'.denoted?)) ui) := by
  have hw' := rearranged.runnable.mp hw
  constructor
  case bijective =>
    simp only [assemble, LayoutStrategy.map_place _ _ (·.id) fun _ _ => rfl, hw.map_id_nodes,
      hw'.map_id_nodes]
    exact bijOn_of_perm w'.nodup_nodeIds (follows.nodeIds hw hw')
  case nodes =>
    have nodes := ((follows.entityNodes l.catalog).append (follows.flowNodes w.denoted?)).map
      Node.unplaced
    rw [← List.map_append, List.map_map, ← follows.denoted? hw hw' distinct] at nodes
    simp only [assemble]
    rw [LayoutStrategy.map_place _ _ _ fun _ _ => rfl, LayoutStrategy.map_place _ _ _ fun _ _ => rfl]
    exact nodes
  case edges =>
    have links := follows.links rearranged hw distinct
    rw [← map_link_numberLinks (w.links _), List.map_map] at links
    simp only [assemble, map_link_numberLinks (w'.links _)]
    exact links
  case others =>
    rw [← l.assemble_rearranged rearranged]
    rfl

/-- Two documents that differ in the order of their declarations, all under different references, are both
    turned down or both answered with a graph, and then the one graph is the other with new names for its
    nodes. -/
theorem compile_rearranged (l : Lowerer) (executable executable' : Value) (w w' : Workflow)
    (read : Workflow.ofValue executable = .ok w) (read' : Workflow.ofValue executable' = .ok w')
    (rearranged : w.Rearranges w') (distinct : w.refs.Nodup) :
    ((l.compile executable).document = none ∧ (l.compile executable').document = none) ∨
    ∃ d d' f, (l.compile executable).document = some d ∧
      (l.compile executable').document = some d' ∧ d.Renames f d' := by
  by_cases runnable : w.Runnable
  · have runnable' := rearranged.runnable.mp runnable
    have accepted := accepts_iff.mpr ⟨read, runnable⟩
    have accepted' := accepts_iff.mpr ⟨read', runnable'⟩
    obtain ⟨f, follows⟩ := rearranged.exists_follows
    have resolver := follows.denoted? runnable runnable' distinct
    have routes : (w'.flow.routes.all fun r => (r.link? w'.denoted?).isSome)
        = w.flow.routes.all fun r => (r.link? w.denoted?).isSome := by
      simp only [resolver, Route.link?_rename, Option.isSome_map]
      exact rearranged.routes.symm.all_eq
    rw [accepted.document_compile, accepted'.document_compile, routes]
    cases w.flow.routes.all fun r => (r.link? w.denoted?).isSome with
    | false => exact .inl ⟨rfl, rfl⟩
    | true =>
      cases l.uiHints with
      | error cause => exact .inl ⟨rfl, rfl⟩
      | ok ui =>
        exact .inr ⟨_, _, f, rfl, rfl, l.renames_assemble ui rearranged follows runnable distinct⟩
  · exact .inl ⟨document_of_not_runnable l read runnable,
      document_of_not_runnable l read' fun all => runnable (rearranged.runnable.mpr all)⟩

/-- A document with several blocks of every kind, its lists in the given order. -/
def blocksInOrder (order : List Value → List Value) : Value :=
  let trigger (id : String) : Value := .obj [("local_id", .str id),
    ("exec", .obj [("provider", .str "p"), ("trigger_slug", .str id), ("configuration", .obj []),
      ("connection_id", .str "c")])]
  let action (id : String) (dependsOn : List Value) : Value := .obj [("local_id", .str id),
    ("depends_on", .arr dependsOn),
    ("exec", .obj [("provider", .str "p"), ("action_slug", .str id), ("connection_id", .str "c"),
      ("required_inputs", .obj []), ("optional_inputs", .obj []),
      ("retry", .obj []), ("timeout_ms", .int 9), ("rate_limit", .obj [])])]
  .obj [
    ("workflow_id", .str "w"), ("version", .int 1),
    ("triggers", .arr (order [trigger "mail", trigger "clock"])),
    ("actions", .arr (order [action "read" [.str "mail"], action "sort" [.str "read"],
      action "send" [.str "sort", .str "read"]])),
    ("flow_control", .obj [
      ("conditions", .arr (order [
        .obj [("local_id", .str "urgent"), ("incoming_ref", .str "clock"),
          ("branches", .arr [.obj [("to_ref", .str "both")], .obj [("to_ref", .str "nowhere")]]),
          ("else_ref", .str "each")],
        .obj [("branches", .arr [.obj [("to_ref", .str "urgent")]])]])),
      ("parallel_execution", .arr (order [
        .obj [("branches", .arr [.str "sort"])],
        .obj [("local_id", .str "both"), ("branches", .arr [.str "read", .str "sort"])]])),
      ("loops", .arr (order [
        .obj [("kind", .str "while"), ("incoming_ref", .str "both.join")],
        .obj [("kind", .str "foreach"), ("local_id", .str "each"), ("body_ref", .str "send")]])),
      ("routes", .arr (order [
        .obj [("from_ref", .str "read"), ("to_ref", .str "both.join")],
        .obj [("from_ref", .str "mail"), ("to_ref", .str "urgent"), ("label", .str "go")]]))])]

theorem compile_rearranged_reverse :
    ∃ d d' f, (standard.compile (blocksInOrder fun list => list)).document = some d ∧
      (standard.compile (blocksInOrder List.reverse)).document = some d' ∧ d.Renames f d' ∧
      d.edges.length = 15 ∧ d.edges.map Edge.link ≠ d'.edges.map Edge.link := by
  have read : ((Workflow.ofValue (blocksInOrder fun list => list)).toOption.bind fun w =>
        (Workflow.ofValue (blocksInOrder List.reverse)).toOption.map fun w' =>
          decide (w.Rearranges w' ∧ w.refs.Nodup)) = some true := by
    decide +kernel
  have built : ((standard.compile (blocksInOrder fun list => list)).document.bind fun d =>
        (standard.compile (blocksInOrder List.reverse)).document.map fun d' =>
          (d.edges.length, decide (d.edges.map Edge.link = d'.edges.map Edge.link)))
      = some (15, false) := by
    decide +kernel
  obtain ⟨d, compiled, built⟩ := Option.bind_eq_some_iff.mp built
  obtain ⟨d', compiled', same⟩ := Option.map_eq_some_iff.mp built
  obtain ⟨count, differ⟩ := Prod.mk.inj same
  obtain ⟨w, read, other⟩ := Option.bind_eq_some_iff.mp read
  obtain ⟨w', read', fine⟩ := Option.map_eq_some_iff.mp other
  obtain ⟨rearranged, distinct⟩ := of_decide_eq_true fine
  obtain ⟨failed, -⟩ | ⟨e, e', f, he, he', renames⟩ :=
    compile_rearranged standard _ _ w w' (eq_ok_of_toOption read) (eq_ok_of_toOption read') rearranged
      distinct
  · rw [compiled] at failed
    cases failed
  · obtain rfl := Option.some.inj (compiled.symm.trans he)
    obtain rfl := Option.some.inj (compiled'.symm.trans he')
    exact ⟨d, d', f, compiled, compiled', renames, count, of_decide_eq_false differ⟩

end Lowerer

end Flowgraph
