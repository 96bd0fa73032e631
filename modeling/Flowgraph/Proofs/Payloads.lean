import Flowgraph.Proofs.Integrity

/-! The payloads of a lowered graph against its edges. Every payload calls for some edges: a gateway for one to
    the target of each branch and one for all else, the start of a parallel block for one to each branch, a
    loop for one to its body. The labelled edges of the graph are exactly these, in the order of the nodes,
    and behind them those of labelled routes; so whoever runs the graph may follow either. -/

namespace Flowgraph

open Json

/-! ### What payloads call for -/

/-- The node at which the body of a loop starts. -/
def NodeData.bodyStart? : NodeData → Option String
  | .loopWhile l => l.bodyStart
  | .loopForeach l => l.bodyStart
  | .trigger _ | .action _ | .gatewayIf _ | .parallel _ | .join _ => none

/-- The edges that the payload of a node calls for, in order. -/
def Node.exits (n : Node) : List Link :=
  match n.data with
  | .gatewayIf g =>
    g.branches.flatMap (fun b => b.target.toList.map fun target =>
        ⟨n.id, target, "success", some b.expr, some b.name⟩)
      ++ g.elseTarget.toList.map fun target => ⟨n.id, target, "success", none, some "else"⟩
  | .parallel p => p.branches.map fun target =>
    ⟨n.id, target, "success", none, some "parallel_branch"⟩
  | data => data.bodyStart?.toList.map fun target =>
    ⟨n.id, target, "success", none, some "loop_body"⟩

/-- All of them lead out of the node and have a label. -/
theorem Node.of_mem_exits {n : Node} {k : Link} (h : k ∈ n.exits) :
    k.source = n.id ∧ k.label.isSome := by
  obtain ⟨id, data, label, icon, position⟩ := n
  cases data with
  | gatewayIf g =>
    rcases List.mem_append.mp h with h | h
    · obtain ⟨b, -, h⟩ := List.mem_flatMap.mp h
      obtain ⟨target, -, rfl⟩ := List.mem_map.mp h
      exact ⟨rfl, rfl⟩
    · obtain ⟨target, -, rfl⟩ := List.mem_map.mp h
      exact ⟨rfl, rfl⟩
  | _ =>
    obtain ⟨target, -, rfl⟩ := List.mem_map.mp h
    exact ⟨rfl, rfl⟩

/-! ### Labelled links -/

/-- The labelled ones among some links. -/
def labelled (links : List Link) : List Link := links.filter (·.label.isSome)

theorem labelled_append (xs ys : List Link) : labelled (xs ++ ys) = labelled xs ++ labelled ys :=
  List.filter_append ..

theorem labelled_flatMap (f : α → List Link) (xs : List α) :
    labelled (xs.flatMap f) = xs.flatMap fun x => labelled (f x) := List.filter_flatMap ..

/-- Links that are all made with a label. -/
theorem labelled_map_some {f : α → Link} (h : ∀ x, (f x).label.isSome) (xs : List α) :
    labelled (xs.map f) = xs.map f := by
  simp [labelled, h]

/-- Links that are all made without one. -/
theorem labelled_map_none {f : α → Link} (h : ∀ x, (f x).label = none) (xs : List α) :
    labelled (xs.map f) = [] := by
  simp [labelled, h]

theorem labelled_linksInto (rho : Resolver) (incoming : Option String) (id : String) :
    labelled (linksInto rho incoming id) = [] := labelled_map_none (fun _ => rfl) _

theorem Conditional.labelled_links (rho : Resolver) (id : String) (c : Conditional) :
    labelled (c.links rho id) = (blockNode id "If" (c.payload rho)).exits := by
  rw [Conditional.links, labelled_append, labelled_append, labelled_linksInto, labelled_flatMap,
    labelled_map_some fun _ => rfl]
  simp only [labelled_map_some, Option.isSome_some, implies_true, Node.exits, blockNode,
    Conditional.payload, List.flatMap_map, List.nil_append]

theorem ParallelBlock.labelled_links (rho : Resolver) (id join : String) (b : ParallelBlock) :
    labelled (b.links rho id join) = (blockNode id "Fan-out" (b.payload rho join)).exits := by
  rw [ParallelBlock.links, labelled_append, labelled_append, labelled_linksInto,
    labelled_map_some fun _ => rfl, labelled_map_none fun _ => rfl, List.nil_append, List.append_nil]
  rfl

theorem LoopBlock.labelled_links (rho : Resolver) (id : String) (l : LoopBlock) :
    labelled (l.links rho id) = (loopNode l id (l.bodyRef.bind rho)).exits := by
  rw [LoopBlock.links, labelled_append, labelled_linksInto, labelled_map_some fun _ => rfl,
    List.nil_append]
  cases l <;> rfl

theorem FlowControl.labelled_links (rho : Resolver) (f : FlowControl) :
    labelled (f.links rho)
      = (f.nodes rho).flatMap Node.exits ++ labelled (f.routes.filterMap (·.link? rho)) := by
  have joins (id par : String) : (blockNode id "Join" (.join ⟨.all, par⟩)).exits = [] := rfl
  simp only [FlowControl.links, FlowControl.nodes, labelled_append, labelled_flatMap,
    Conditional.labelled_links, ParallelBlock.labelled_links, LoopBlock.labelled_links,
    List.flatMap_append, List.flatMap_map, List.flatMap_assoc, List.flatMap_cons, List.flatMap_nil,
    joins, List.append_nil]

theorem Workflow.labelled_links (rho : Resolver) (w : Workflow) :
    labelled (w.links rho)
      = (w.flow.nodes rho).flatMap Node.exits ++ labelled (w.flow.routes.filterMap (·.link? rho)) := by
  rw [Workflow.links, labelled_append, FlowControl.labelled_links, dependencyLinks,
    labelled_map_none fun _ => rfl, List.append_nil]

/-- What the nodes call for is called for by each of them. -/
theorem filter_source_exits {nodes : List Node} (distinct : (nodes.map (·.id)).Nodup) {n : Node}
    (hn : n ∈ nodes) : ((nodes.flatMap Node.exits).filter fun k => k.source = n.id) = n.exits := by
  have own (m : Node) : (m.exits.filter fun k => k.source = n.id)
      = if m.id = n.id then m.exits else [] := by
    by_cases same : m.id = n.id
    · rw [if_pos same, List.filter_eq_self]
      intro k hk
      simpa [(Node.of_mem_exits hk).1] using same
    · rw [if_neg same, List.filter_eq_nil_iff]
      intro k hk
      simpa [(Node.of_mem_exits hk).1] using same
  induction nodes with
  | nil => cases hn
  | cons m nodes ih =>
    obtain ⟨fresh, distinct⟩ := List.nodup_cons.mp distinct
    rw [List.flatMap_cons, List.filter_append, own]
    rcases List.mem_cons.mp hn with rfl | hn
    · -- No later node has the id again.
      have rest : ((nodes.flatMap Node.exits).filter fun k => k.source = n.id) = [] := by
        rw [List.filter_flatMap, List.flatMap_eq_nil_iff]
        intro m hm
        rw [own, if_neg]
        intro same
        exact fresh (List.mem_map.mpr ⟨m, hm, same⟩)
      rw [if_pos rfl, rest, List.append_nil]
    · have other : m.id ≠ n.id := fun same => fresh (List.mem_map.mpr ⟨n, hn, same.symm⟩)
      rw [if_neg other, List.nil_append, ih distinct hn]

/-! ### The nodes of blocks -/

/-- What a node is and does, wherever it is shown. -/
def Node.core (n : Node) : String × NodeData := (n.id, n.data)

namespace FlowControl

variable {rho : Resolver} {f : FlowControl} {m : Node}

theorem parallel_of_mem_nodes (hm : m ∈ f.nodes rho) {p : ParallelNode} (start : m.data = .parallel p) :
    ∃ x ∈ f.parallels.zipIdx, m.id = nodeId "par" (x.2 + 1) ∧
      p = ⟨x.1.branches.filterMap rho, nodeId "join" (x.2 + 1)⟩ := by
  rcases mem_nodes.mp hm with ⟨x, -, rfl⟩ | ⟨x, hx, rfl⟩ | ⟨x, -, rfl⟩ | ⟨⟨l, i⟩, -, rfl⟩
  · cases start
  · exact ⟨x, hx, rfl, (NodeData.parallel.inj start).symm⟩
  · cases start
  · cases l <;> cases start

theorem join_of_mem_nodes (hm : m ∈ f.nodes rho) {j : JoinNode} (meet : m.data = .join j) :
    ∃ x ∈ f.parallels.zipIdx, m.id = nodeId "join" (x.2 + 1) ∧ j = ⟨.all, nodeId "par" (x.2 + 1)⟩ := by
  rcases mem_nodes.mp hm with ⟨x, -, rfl⟩ | ⟨x, -, rfl⟩ | ⟨x, hx, rfl⟩ | ⟨⟨l, i⟩, -, rfl⟩
  · cases meet
  · cases meet
  · exact ⟨x, hx, rfl, (NodeData.join.inj meet).symm⟩
  · cases l <;> cases meet

end FlowControl

/-! ### Payloads and edges of a graph -/

/-- The links of the routes of a workflow. -/
def Workflow.routeLinks (w : Workflow) : List Link := w.flow.routes.filterMap (·.link? w.denoted?)

/-- The payloads of a graph agree with its edges, and both with the references of the workflow. -/
structure Dag.Agrees (d : Dag) (w : Workflow) : Prop where
  /-- A branch that leads to a node has an edge there, with its name and its expression. -/
  branch : ∀ n ∈ d.nodes, ∀ g, n.data = .gatewayIf g → ∀ b ∈ g.branches, ∀ x, b.target = some x →
    ∃ e ∈ d.edges, e.source = n.id ∧ e.target = x ∧ e.label = some b.name ∧ e.condition = some b.expr
  otherwise : ∀ n ∈ d.nodes, ∀ g, n.data = .gatewayIf g → ∀ y, g.elseTarget = some y →
    ∃ e ∈ d.edges, e.source = n.id ∧ e.target = y ∧ e.label = some "else" ∧ e.condition = none
  body : ∀ n ∈ d.nodes, ∀ z, n.data.bodyStart? = some z →
    ∃ e ∈ d.edges, e.source = n.id ∧ e.target = z ∧ e.label = some "loop_body" ∧ e.condition = none
  /-- The edges to the branches of a parallel block come in the order of its branches; behind them are those
      of routes that are labelled like them. -/
  fanOut : ∀ n ∈ d.nodes, ∀ p, n.data = .parallel p →
    (d.edges.filter fun e => e.source = n.id ∧ e.label = some "parallel_branch").map (·.target)
      = p.branches ++ (w.routeLinks.filter fun k =>
          k.source = n.id ∧ k.label = some "parallel_branch").map (·.target)
  /-- Starts and joins of parallel blocks name each other. -/
  joined : ∀ n ∈ d.nodes, ∀ p, n.data = .parallel p →
    ∃ m ∈ d.nodes, ∃ j, m.id = p.join ∧ m.data = .join j ∧ j.parallel = n.id
  started : ∀ m ∈ d.nodes, ∀ j, m.data = .join j →
    ∃ n ∈ d.nodes, ∃ p, n.id = j.parallel ∧ n.data = .parallel p ∧ p.join = m.id
  oneStart : ∀ n ∈ d.nodes, ∀ n' ∈ d.nodes, ∀ p p', n.data = .parallel p → n'.data = .parallel p' →
    p.join = p'.join → n = n'
  oneJoin : ∀ m ∈ d.nodes, ∀ m' ∈ d.nodes, ∀ j j', m.data = .join j → m'.data = .join j' →
    j.parallel = j'.parallel → m = m'
  /-- The labelled edges out of a node are those that its payload calls for, and then those of routes. -/
  calls : ∀ n ∈ d.nodes, (d.edges.filter fun e => e.source = n.id ∧ e.label.isSome).map Edge.link
    = n.exits ++ w.routeLinks.filter fun k => k.source = n.id ∧ k.label.isSome
  /-- What a payload names is what the references of its block stand for; one that stands for nothing is
      left out. -/
  gateways : ∀ x ∈ w.flow.conditions.zipIdx, ∃ n ∈ d.nodes, n.id = nodeId "g" (x.2 + 1) ∧
    n.data = x.1.payload w.denoted?
  parallels : ∀ x ∈ w.flow.parallels.zipIdx, ∃ n ∈ d.nodes, n.id = nodeId "par" (x.2 + 1) ∧
    n.data = x.1.payload w.denoted? (nodeId "join" (x.2 + 1))
  loops : ∀ x ∈ w.flow.loops.zipIdx, ∃ n ∈ d.nodes, n.id = nodeId "loop" (x.2 + 1) ∧
    n.data.bodyStart? = x.1.bodyRef.bind w.denoted?

/-- A graph made of the nodes and links of a workflow. -/
structure Dag.MadeOf (d : Dag) (w : Workflow) (catalog : Option CatalogIndex) : Prop where
  distinct : (d.nodes.map (·.id)).Nodup
  nodes : d.nodes.map Node.core
    = (w.entityNodes catalog ++ w.flow.nodes w.denoted?).map Node.core
  edges : d.edges.map Edge.link = w.links w.denoted?

theorem Workflow.type_of_mem_entityNodes {w : Workflow} {catalog : Option CatalogIndex} {n : Node}
    (hn : n ∈ w.entityNodes catalog) : n.data.type = .trigger ∨ n.data.type = .action := by
  rcases List.mem_append.mp hn with hn | hn
  · obtain ⟨x, -, rfl⟩ := List.mem_map.mp hn
    exact .inl rfl
  · obtain ⟨x, -, rfl⟩ := List.mem_map.mp hn
    exact .inr rfl

theorem Lowerer.madeOf_of_compile {l : Lowerer} {executable : Value} {d : Dag}
    (compiled : (l.compile executable).document = some d) :
    ∃ w, Accepts executable w ∧ d.MadeOf w l.catalog := by
  obtain ⟨w, nodes, edges, ui, accepted, built, -, rfl, -⟩ := exists_of_compile_eq_some compiled
  obtain ⟨placed, drawn, -⟩ := parts_of_compile accepted.read compiled
  refine ⟨w, accepted, (accepted.runnable.holdsTogether built).nodup, ?_, ?_⟩
  · rw [placed]
    exact LayoutStrategy.map_place _ _ _ fun _ _ => rfl
  · rw [drawn, map_link_numberLinks]

namespace Dag.MadeOf

variable {d : Dag} {w : Workflow} {catalog : Option CatalogIndex} (made : d.MadeOf w catalog)
include made

/-- Each node of a block is there. -/
theorem exists_of_mem_nodes {m : Node} (hm : m ∈ w.flow.nodes w.denoted?) :
    ∃ n ∈ d.nodes, n.id = m.id ∧ n.data = m.data := by
  have there : m.core ∈ d.nodes.map Node.core := by
    rw [made.nodes]
    exact List.mem_map_of_mem (List.mem_append_right _ hm)
  obtain ⟨n, hn, same⟩ := List.mem_map.mp there
  exact ⟨n, hn, congrArg Prod.fst same, congrArg Prod.snd same⟩

/-- Each node that is no trigger and no action is that of a block. -/
theorem exists_of_type {n : Node} (hn : n ∈ d.nodes) (noTrigger : n.data.type ≠ .trigger)
    (noAction : n.data.type ≠ .action) :
    ∃ m ∈ w.flow.nodes w.denoted?, m.id = n.id ∧ m.data = n.data := by
  have there : n.core ∈ (w.entityNodes catalog ++ w.flow.nodes w.denoted?).map Node.core := by
    rw [← made.nodes]
    exact List.mem_map_of_mem hn
  obtain ⟨m, hm, same⟩ := List.mem_map.mp there
  have data : m.data = n.data := congrArg Prod.snd same
  rcases List.mem_append.mp hm with hm | hm
  · rcases Workflow.type_of_mem_entityNodes hm with type | type
    · exact absurd (data ▸ type) noTrigger
    · exact absurd (data ▸ type) noAction
  · exact ⟨m, hm, congrArg Prod.fst same, data⟩

/-- The labelled links are those that the nodes call for, and then those of routes. -/
theorem labelled_edges :
    labelled (d.edges.map Edge.link) = d.nodes.flatMap Node.exits ++ labelled w.routeLinks := by
  have entities : (w.entityNodes catalog).flatMap Node.exits = [] := by
    refine List.flatMap_eq_nil_iff.mpr fun n hn => ?_
    have type := Workflow.type_of_mem_entityNodes hn
    cases data : n.data <;> simp_all [NodeData.type, Node.exits, NodeData.bodyStart?]
  -- What a node calls for is read off its id and its payload.
  have core (ns : List Node) : ns.flatMap Node.exits
      = (ns.map Node.core).flatMap fun c => (⟨c.1, c.2, "", .none, .none⟩ : Node).exits := by
    rw [List.flatMap_map]
    rfl
  have exits : d.nodes.flatMap Node.exits = (w.flow.nodes w.denoted?).flatMap Node.exits := by
    rw [core, made.nodes, ← core, List.flatMap_append, entities, List.nil_append]
  rw [made.edges, Workflow.labelled_links, exits]
  rfl

/-- Whatever a payload calls for is there. -/
theorem exists_edge {n : Node} (hn : n ∈ d.nodes) {k : Link} (hk : k ∈ n.exits) :
    ∃ e ∈ d.edges, e.source = k.source ∧ e.target = k.target ∧ e.label = k.label ∧
      e.condition = k.condition := by
  have called : k ∈ labelled (d.edges.map Edge.link) := by
    rw [made.labelled_edges]
    exact List.mem_append_left _ (List.mem_flatMap.mpr ⟨n, hn, hk⟩)
  obtain ⟨e, he, rfl⟩ := List.mem_map.mp (List.mem_filter.mp called).1
  exact ⟨e, he, rfl, rfl, rfl, rfl⟩

/-- Any kind of labelled edges out of one node. -/
theorem filter_edges {n : Node} (hn : n ∈ d.nodes) {P : Link → Bool}
    (kind : ∀ k, P k → k.source = n.id ∧ k.label.isSome) :
    (d.edges.map Edge.link).filter P = n.exits.filter P ++ w.routeLinks.filter P := by
  have narrow (links : List Link) :
      links.filter P = ((labelled links).filter fun k => k.source = n.id).filter P := by
    rw [labelled, List.filter_filter, List.filter_filter]
    refine List.filter_congr fun k _ => ?_
    cases h : P k with
    | false => rfl
    | true => simp [kind k h]
  rw [narrow, made.labelled_edges, List.filter_append, filter_source_exits made.distinct hn,
    List.filter_append, ← narrow]

theorem calls {n : Node} (hn : n ∈ d.nodes) :
    (d.edges.filter fun e => e.source = n.id ∧ e.label.isSome).map Edge.link
      = n.exits ++ w.routeLinks.filter fun k => k.source = n.id ∧ k.label.isSome := by
  have all : (n.exits.filter fun k => k.source = n.id ∧ k.label.isSome) = n.exits := by
    refine List.filter_eq_self.mpr fun k hk => ?_
    simp [Node.of_mem_exits hk]
  have edges := made.filter_edges hn (P := fun k => k.source = n.id ∧ k.label.isSome) (by simp)
  rw [all, List.filter_map] at edges
  exact edges

theorem fanOut {n : Node} (hn : n ∈ d.nodes) {p : ParallelNode} (start : n.data = .parallel p) :
    (d.edges.filter fun e => e.source = n.id ∧ e.label = some "parallel_branch").map (·.target)
      = p.branches ++ (w.routeLinks.filter fun k =>
          k.source = n.id ∧ k.label = some "parallel_branch").map (·.target) := by
  have own : (n.exits.filter fun k => k.source = n.id ∧ k.label = some "parallel_branch").map (·.target)
      = p.branches := by
    simp [Node.exits, start, List.filter_map, Function.comp_def]
  have edges := made.filter_edges hn (P := fun k => k.source = n.id ∧ k.label = some "parallel_branch")
    (by rintro k h; simp_all)
  rw [List.filter_map] at edges
  have targets := congrArg (List.map (·.target)) edges
  rw [List.map_append, own, List.map_map] at targets
  exact targets

theorem joined {n : Node} (hn : n ∈ d.nodes) {p : ParallelNode} (start : n.data = .parallel p) :
    ∃ m ∈ d.nodes, m.id = p.join ∧ m.data = .join ⟨.all, n.id⟩ := by
  obtain ⟨m, hm, id, data⟩ := made.exists_of_type hn (by simp [start, NodeData.type])
    (by simp [start, NodeData.type])
  obtain ⟨x, hx, number, rfl⟩ := FlowControl.parallel_of_mem_nodes hm (data.trans start)
  rw [← id, number]
  exact made.exists_of_mem_nodes (FlowControl.mem_nodes.mpr (.inr (.inr (.inl ⟨x, hx, rfl⟩))))

theorem started {m : Node} (hm : m ∈ d.nodes) {j : JoinNode} (meet : m.data = .join j) :
    ∃ n ∈ d.nodes, ∃ p, n.id = j.parallel ∧ n.data = .parallel p ∧ p.join = m.id := by
  obtain ⟨m', hm', id, data⟩ := made.exists_of_type hm (by simp [meet, NodeData.type])
    (by simp [meet, NodeData.type])
  obtain ⟨x, hx, number, rfl⟩ := FlowControl.join_of_mem_nodes hm' (data.trans meet)
  obtain ⟨n, hn, same, payload⟩ := made.exists_of_mem_nodes
    (FlowControl.mem_nodes.mpr (.inr (.inl ⟨x, hx, rfl⟩)))
  exact ⟨n, hn, _, same, payload, number.symm.trans id⟩

/-- Nodes with one id are one node. -/
theorem eq_of_id {n n' : Node} (hn : n ∈ d.nodes) (hn' : n' ∈ d.nodes) (same : n.id = n'.id) : n = n' :=
  List.inj_on_of_nodup_map made.distinct hn hn' same

theorem agrees : d.Agrees w where
  branch := by
    intro n hn g gateway b hb x leads
    have called : ⟨n.id, x, "success", some b.expr, some b.name⟩ ∈ n.exits := by
      simp only [Node.exits, gateway, List.mem_append, List.mem_flatMap]
      exact .inl ⟨b, hb, by simp [leads]⟩
    exact made.exists_edge hn called
  otherwise := by
    intro n hn g gateway y leads
    have called : ⟨n.id, y, "success", none, some "else"⟩ ∈ n.exits := by
      simp [Node.exits, gateway, leads]
    exact made.exists_edge hn called
  body := by
    intro n hn z leads
    have called : ⟨n.id, z, "success", none, some "loop_body"⟩ ∈ n.exits := by
      cases data : n.data <;> simp_all [Node.exits, NodeData.bodyStart?]
    exact made.exists_edge hn called
  fanOut n hn p start := made.fanOut hn start
  joined := by
    intro n hn p start
    obtain ⟨m, hm, id, meet⟩ := made.joined hn start
    exact ⟨m, hm, _, id, meet, rfl⟩
  started m hm j meet := made.started hm meet
  oneStart := by
    intro n hn n' hn' p p' start start' same
    obtain ⟨m, hm, id, meet⟩ := made.joined hn start
    obtain ⟨m', hm', id', meet'⟩ := made.joined hn' start'
    obtain rfl := made.eq_of_id hm hm' (id.trans (same.trans id'.symm))
    have back := NodeData.join.inj (meet.symm.trans meet')
    exact made.eq_of_id hn hn' (congrArg JoinNode.parallel back)
  oneJoin := by
    intro m hm m' hm' j j' meet meet' same
    obtain ⟨n, hn, p, id, start, back⟩ := made.started hm meet
    obtain ⟨n', hn', p', id', start', back'⟩ := made.started hm' meet'
    obtain rfl := made.eq_of_id hn hn' (id.trans (same.trans id'.symm))
    obtain rfl : p = p' := NodeData.parallel.inj (start.symm.trans start')
    exact made.eq_of_id hm hm' (back.symm.trans back')
  calls n hn := made.calls hn
  gateways := by
    intro x hx
    exact made.exists_of_mem_nodes (FlowControl.mem_nodes.mpr (.inl ⟨x, hx, rfl⟩))
  parallels := by
    intro x hx
    exact made.exists_of_mem_nodes (FlowControl.mem_nodes.mpr (.inr (.inl ⟨x, hx, rfl⟩)))
  loops := by
    intro x hx
    obtain ⟨n, hn, id, data⟩ := made.exists_of_mem_nodes
      (FlowControl.mem_nodes.mpr (.inr (.inr (.inr ⟨x, hx, rfl⟩))))
    obtain ⟨l, i⟩ := x
    cases l <;> exact ⟨n, hn, id, data ▸ rfl⟩

end Dag.MadeOf

namespace Lowerer

/-- The payloads of every graph that is handed out agree with its edges. -/
theorem payloads_agree_with_edges (l : Lowerer) (executable : Value) (d : Dag)
    (compiled : (l.compile executable).document = some d) :
    ∃ w, Accepts executable w ∧ d.Agrees w := by
  obtain ⟨w, accepted, made⟩ := madeOf_of_compile compiled
  exact ⟨w, accepted, made.agrees⟩

/-- A trigger that can be run. -/
def readyTrigger (id : String) : Value :=
  .obj [("local_id", .str id), ("exec", .obj [("provider", .str "p"), ("trigger_slug", .str "s"),
    ("configuration", .obj []), ("connection_id", .str "c")])]

/-- An action that can be run. -/
def readyAction (id : String) (more : Object) : Value :=
  .obj ([("local_id", .str id), ("exec", .obj [("provider", .str "p"), ("action_slug", .str "s"),
    ("connection_id", .str "c"), ("required_inputs", .obj []), ("optional_inputs", .obj []),
    ("retry", .obj []), ("timeout_ms", .int 9), ("rate_limit", .obj [])])] ++ more)

/-- A document whose blocks lead to each other and to themselves, twice to the same action and to nothing,
    with routes that are labelled like the edges of blocks. -/
def tangledBlocks : Value :=
  .obj [
    ("workflow_id", .str "w"), ("version", .int 1), ("triggers", .arr [readyTrigger "start"]),
    ("actions", .arr [readyAction "work" []]),
    ("flow_control", .obj [
      ("conditions", .arr [.obj [("local_id", .str "check"), ("incoming_ref", .str "start"),
        ("branches", .arr [.obj [("name", .str "again"), ("expr", .int 1), ("to_ref", .str "check")],
          .obj [("name", .str "again"), ("to_ref", .str "nowhere")],
          .obj [("expr", .str "x > 2"), ("to_ref", .str "fan")]]),
        ("else_ref", .str "fan.join")]]),
      ("parallel_execution", .arr [.obj [("local_id", .str "fan"),
        ("branches", .arr [.str "work", .str "nowhere", .str "each", .str "work"]),
        ("outgoing_ref", .str "check")]]),
      ("loops", .arr [
        .obj [("kind", .str "while"), ("local_id", .str "each"), ("body_ref", .str "each")],
        .obj [("kind", .str "foreach"), ("body_ref", .str "nowhere")]]),
      ("routes", .arr [
        .obj [("from_ref", .str "fan"), ("to_ref", .str "start"), ("label", .str "parallel_branch")],
        .obj [("from_ref", .str "check"), ("to_ref", .str "work"), ("label", .str "else"),
          ("condition", .int 0)]])])]

theorem payloads_agree_with_edges_tangled :
    ∃ d w, (standard.compile tangledBlocks).document = some d ∧ Accepts tangledBlocks w ∧ d.Agrees w ∧
      d.edges.map (fun e => (e.source, e.target, e.label))
        = [("t1", "g1", none), ("g1", "g1", some "again"), ("g1", "par1", some "branch_3"),
          ("g1", "join1", some "else"), ("par1", "a1", some "parallel_branch"),
          ("par1", "loop1", some "parallel_branch"), ("par1", "a1", some "parallel_branch"),
          ("join1", "g1", none), ("loop1", "loop1", some "loop_body"),
          ("par1", "t1", some "parallel_branch"), ("g1", "a1", some "else")] := by
  have edges : (standard.compile tangledBlocks).document.map
        (fun d => d.edges.map fun e => (e.source, e.target, e.label))
      = some [("t1", "g1", none), ("g1", "g1", some "again"), ("g1", "par1", some "branch_3"),
          ("g1", "join1", some "else"), ("par1", "a1", some "parallel_branch"),
          ("par1", "loop1", some "parallel_branch"), ("par1", "a1", some "parallel_branch"),
          ("join1", "g1", none), ("loop1", "loop1", some "loop_body"),
          ("par1", "t1", some "parallel_branch"), ("g1", "a1", some "else")] := by
    decide +kernel
  obtain ⟨d, compiled, same⟩ := Option.map_eq_some_iff.mp edges
  obtain ⟨w, accepted, agrees⟩ := payloads_agree_with_edges standard tangledBlocks d compiled
  exact ⟨d, w, compiled, accepted, agrees, same⟩

end Lowerer

end Flowgraph
