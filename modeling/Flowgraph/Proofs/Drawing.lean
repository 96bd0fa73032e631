import Flowgraph.Dag.Flow
import Flowgraph.Proofs.References
import Flowgraph.Proofs.Traced

/-! What control flow draws, as a function of what references stand for. Each kind of block has its links
    and its payload said once, without reports and without an index; the drawing is then shown to be made
    of exactly these, in order. -/

namespace Flowgraph

open Json

/-- A way to tell which node a reference stands for. -/
abbrev Resolver := String → Option String

/-! ### The links of each part -/

/-- The edge into a block from the node that its incoming reference stands for. -/
def linksInto (rho : Resolver) (incoming : Option String) (id : String) : List Link :=
  (incoming.bind rho).toList.map fun source => ⟨source, id, "success", none, none⟩

/-- The name of a branch: its own, or its number. -/
def ConditionBranch.title (b : ConditionBranch) (j : Nat) : String :=
  b.name.getD ("branch_" ++ toString (j + 1))

/-- One edge in, one for each branch that leads somewhere, one for all else. -/
def Conditional.links (rho : Resolver) (id : String) (c : Conditional) : List Link :=
  linksInto rho c.incomingRef id
    ++ c.branches.zipIdx.flatMap (fun (b, j) => (rho b.toRef).toList.map fun target =>
      ⟨id, target, "success", some b.expr, some (b.title j)⟩)
    ++ (c.elseRef.bind rho).toList.map fun target => ⟨id, target, "success", none, some "else"⟩

/-- One edge in, one for each branch that leads somewhere, one out of the join. -/
def ParallelBlock.links (rho : Resolver) (id join : String) (b : ParallelBlock) : List Link :=
  linksInto rho b.incomingRef id
    ++ (b.branches.filterMap rho).map (fun target =>
      ⟨id, target, "success", none, some "parallel_branch"⟩)
    ++ (b.outgoingRef.bind rho).toList.map fun target => ⟨join, target, "success", none, none⟩

/-- One edge in and one to the body. -/
def LoopBlock.links (rho : Resolver) (id : String) (l : LoopBlock) : List Link :=
  linksInto rho l.incomingRef id
    ++ (l.bodyRef.bind rho).toList.map fun target =>
      ⟨id, target, "success", none, some "loop_body"⟩

/-- The edge of a route whose two ends stand for nodes. -/
def Route.link? (rho : Resolver) (r : Route) : Option Link :=
  (rho r.fromRef).bind fun source => (rho r.toRef).map fun target =>
    ⟨source, target, r.when.getD "success", r.condition, r.label⟩

/-- The two ends of every dependency that stands for a node, in document order. -/
def dependencyEnds (rho : Resolver) (actions : List Action) : List (String × String) :=
  actions.flatMap fun a => (rho a.localId).toList.flatMap fun target =>
    ((a.dependsOn.getD []).filterMap rho).map fun source => (source, target)

/-- An edge between two nodes that is followed on success. -/
def Link.onSuccess (l : Link) (source target : String) : Bool :=
  l.source = source ∧ l.target = target ∧ l.when = "success"

/-- The edges of the dependencies: one for each two ends, unless such an edge is drawn already. -/
def dependencyLinks (drawn : List Link) (ends : List (String × String)) : List Link :=
  (ends.eraseDups.filter fun (source, target) => !drawn.any (·.onSuccess source target)).map
    fun (source, target) => ⟨source, target, "success", none, none⟩

namespace FlowControl

/-- The links of the blocks and routes, in document order within each kind. -/
def links (rho : Resolver) (f : FlowControl) : List Link :=
  f.conditions.zipIdx.flatMap (fun (c, i) => c.links rho (nodeId "g" (i + 1)))
    ++ f.parallels.zipIdx.flatMap (fun (b, i) =>
      b.links rho (nodeId "par" (i + 1)) (nodeId "join" (i + 1)))
    ++ f.loops.zipIdx.flatMap (fun (l, i) => l.links rho (nodeId "loop" (i + 1)))
    ++ f.routes.filterMap (·.link? rho)

end FlowControl

/-- All links of a workflow: those of its control flow, then those of its dependencies. -/
def Workflow.links (rho : Resolver) (w : Workflow) : List Link :=
  w.flow.links rho ++ dependencyLinks (w.flow.links rho) (dependencyEnds rho w.actions)

/-! ### The payloads of each block -/

def Conditional.payload (rho : Resolver) (c : Conditional) : NodeData :=
  .gatewayIf ⟨c.branches.zipIdx.map fun (b, j) => ⟨b.title j, b.expr, rho b.toRef⟩,
    c.elseRef.bind rho⟩

def ParallelBlock.payload (rho : Resolver) (join : String) (b : ParallelBlock) : NodeData :=
  .parallel ⟨b.branches.filterMap rho, join⟩

/-- The nodes of the blocks, in document order within each kind. -/
def FlowControl.nodes (rho : Resolver) (f : FlowControl) : List Node :=
  f.conditions.zipIdx.map (fun (c, i) => blockNode (nodeId "g" (i + 1)) "If" (c.payload rho))
    ++ f.parallels.zipIdx.flatMap (fun (b, i) =>
      [blockNode (nodeId "par" (i + 1)) "Fan-out" (b.payload rho (nodeId "join" (i + 1))),
       blockNode (nodeId "join" (i + 1)) "Join" (.join ⟨.all, nodeId "par" (i + 1)⟩)])
    ++ f.loops.zipIdx.map (fun (l, i) =>
      loopNode l (nodeId "loop" (i + 1)) (l.bodyRef.bind rho))

/-- The nodes of the blocks, kind by kind. -/
theorem FlowControl.mem_nodes {rho : Resolver} {f : FlowControl} {m : Node} :
    m ∈ f.nodes rho ↔
    (∃ x ∈ f.conditions.zipIdx, m = blockNode (nodeId "g" (x.2 + 1)) "If" (x.1.payload rho)) ∨
    (∃ x ∈ f.parallels.zipIdx,
      m = blockNode (nodeId "par" (x.2 + 1)) "Fan-out" (x.1.payload rho (nodeId "join" (x.2 + 1)))) ∨
    (∃ x ∈ f.parallels.zipIdx,
      m = blockNode (nodeId "join" (x.2 + 1)) "Join" (.join ⟨.all, nodeId "par" (x.2 + 1)⟩)) ∨
    ∃ x ∈ f.loops.zipIdx, m = loopNode x.1 (nodeId "loop" (x.2 + 1)) (x.1.bodyRef.bind rho) := by
  simp only [FlowControl.nodes, List.mem_append, List.mem_map, List.mem_flatMap, List.mem_cons,
    List.not_mem_nil, or_false, and_or_left, exists_or, or_assoc, eq_comm]

/-! ### The drawing is made of these -/

namespace RefIndex

@[simp] theorem value_resolve (ix : RefIndex) (ref path : String) :
    (ix.resolve ref path).value = ix.lookup? ref := by
  simp only [resolve]
  split <;> rfl

@[simp] theorem errors_resolve (ix : RefIndex) (ref path : String) :
    (ix.resolve ref path).log.errors = [] := by
  simp only [resolve]
  split <;> rfl

@[simp] theorem value_resolve? (ix : RefIndex) (ref : Option String) (path : String) :
    (ix.resolve? ref path).value = ref.bind ix.lookup? := by
  cases ref with
  | none => rfl
  | some ref => exact value_resolve ix ref path

@[simp] theorem errors_resolve? (ix : RefIndex) (ref : Option String) (path : String) :
    (ix.resolve? ref path).log.errors = [] := by
  cases ref with
  | none => rfl
  | some ref => exact errors_resolve ix ref path

end RefIndex

theorem Link.plain_eq (source : String) :
    Link.plain source = fun target => ⟨source, target, "success", none, none⟩ := rfl

theorem value_conditionGraph (ix : RefIndex) (c : Conditional) (id path : String) :
    (conditionGraph ix c id path).value
      = ⟨[blockNode id "If" (c.payload ix.lookup?)], c.links ix.lookup? id⟩ := by
  simp [conditionGraph, gatewayBranches, Conditional.payload, Conditional.links, linksInto,
    incomingLink, Link.plain_eq, Edge.usualWhen, ConditionBranch.title, List.flatMap_map]

theorem value_parallelGraph (ix : RefIndex) (b : ParallelBlock) (id join path : String) :
    (parallelGraph ix b id join path).value
      = ⟨[blockNode id "Fan-out" (b.payload ix.lookup? join),
          blockNode join "Join" (.join ⟨.all, id⟩)], b.links ix.lookup? id join⟩ := by
  have targets : b.branches.zipIdx.filterMap (fun x => ix.lookup? x.1)
      = b.branches.filterMap ix.lookup? := by
    conv_rhs => rw [← List.zipIdx_map_fst 0 b.branches]
    rw [List.filterMap_map]
    rfl
  simp [parallelGraph, ParallelBlock.payload, ParallelBlock.links, linksInto, incomingLink,
    Link.plain_eq, targets]

theorem value_loopGraph (ix : RefIndex) (l : LoopBlock) (id path : String) :
    (loopGraph ix l id path).value
      = ⟨[loopNode l id (l.bodyRef.bind ix.lookup?)], l.links ix.lookup? id⟩ := by
  simp [loopGraph, LoopBlock.links, linksInto, incomingLink, Link.plain_eq]

theorem value_routeEnd (ix : RefIndex) (ref path what : String) (code : DiagnosticCode) :
    (routeEnd ix ref path what code).value = ix.lookup? ref := by
  simp only [routeEnd, Traced.value_bind, RefIndex.value_resolve]
  split <;> simp

theorem value_routeLink (ix : RefIndex) (r : Route) (path : String) :
    (routeLink ix r path).value = r.link? ix.lookup? := by
  simp only [routeLink, Traced.value_bind, value_routeEnd, Route.link?]
  cases ix.lookup? r.fromRef <;> cases ix.lookup? r.toRef <;> rfl

theorem FlowControl.value_routeLinks (f : FlowControl) (ix : RefIndex) :
    (f.routeLinks ix).value = f.routes.map (·.link? ix.lookup?) := by
  rw [routeLinks, Traced.value_mapM]
  conv_rhs => rw [← List.zipIdx_map_fst 0 f.routes, List.map_map]
  simp [value_routeLink]

theorem FlowControl.links_blockGraphs (f : FlowControl) (ix : RefIndex) :
    (f.blockGraphs ix).value.flatMap (·.links)
      ++ (f.routeLinks ix).value.filterMap (fun link => link) = f.links ix.lookup? := by
  rw [value_routeLinks, List.filterMap_map, FlowControl.links]
  congr 1
  simp [blockGraphs, List.flatMap_map, value_conditionGraph, value_parallelGraph, value_loopGraph]

theorem FlowControl.nodes_blockGraphs (f : FlowControl) (ix : RefIndex) :
    (f.blockGraphs ix).value.flatMap (·.nodes) = f.nodes ix.lookup? := by
  simp [blockGraphs, FlowControl.nodes, List.flatMap_map, value_conditionGraph,
    value_parallelGraph, value_loopGraph, ← List.map_eq_flatMap]

/-! ### Dependencies -/

theorem mem_dependencyLinks {drawn : List Link} {ends : List (String × String)} {l : Link} :
    l ∈ dependencyLinks drawn ends ↔ ∃ e ∈ ends,
      (∀ k ∈ drawn, ¬k.onSuccess e.1 e.2) ∧ (⟨e.1, e.2, "success", none, none⟩ : Link) = l := by
  simp only [dependencyLinks, List.mem_map, List.mem_filter, List.mem_eraseDups,
    Bool.not_eq_true', List.any_eq_false, and_assoc]

/-- The edges of dependencies join the ends that nothing drawn before joins. -/
theorem any_dependencyLinks (drawn : List Link) (ends : List (String × String))
    (source target : String) :
    (dependencyLinks drawn ends).any (·.onSuccess source target)
      = (ends.contains (source, target) && !drawn.any (·.onSuccess source target)) := by
  rw [Bool.eq_iff_iff, List.any_eq_true, Bool.and_eq_true, List.contains_iff_mem]
  constructor
  · rintro ⟨l, hl, joins⟩
    obtain ⟨e, he, rfl⟩ := List.mem_map.mp hl
    obtain ⟨old, new⟩ := List.mem_filter.mp he
    simp only [Link.onSuccess, decide_eq_true_eq] at joins
    obtain ⟨rfl, rfl, -⟩ := joins
    exact ⟨List.mem_eraseDups.mp old, new⟩
  · rintro ⟨old, new⟩
    refine ⟨⟨source, target, "success", none, none⟩, ?_, by simp [Link.onSuccess]⟩
    exact List.mem_map.mpr ⟨(source, target),
      List.mem_filter.mpr ⟨List.mem_eraseDups.mpr old, new⟩, rfl⟩

theorem dependencyLinks_singleton (drawn : List Link) (e : String × String) :
    dependencyLinks drawn [e] = if drawn.any (·.onSuccess e.1 e.2) then []
      else [⟨e.1, e.2, "success", none, none⟩] := by
  obtain ⟨source, target⟩ := e
  have one : [(source, target)].eraseDups = [(source, target)] := rfl
  simp only [dependencyLinks, one, List.filter_cons, List.filter_nil]
  cases drawn.any (·.onSuccess source target) <;> rfl

theorem addDependency_eq (links : List Link) (source target : String) :
    addDependency links source target
      = if links.any (·.onSuccess source target) then links
        else links ++ [⟨source, target, "success", none, none⟩] := rfl

/-- Drawing one more dependency: its edge comes last, unless there is one. -/
theorem dependencyLinks_concat (drawn : List Link) (ends : List (String × String))
    (e : String × String) :
    addDependency (drawn ++ dependencyLinks drawn ends) e.1 e.2
      = drawn ++ dependencyLinks drawn (ends ++ [e]) := by
  rw [addDependency_eq, List.any_append, any_dependencyLinks]
  by_cases old : e ∈ ends
  · -- The same two ends have been met before: an edge joins them, whoever drew it.
    have gone : [e].removeAll ends = [] := by simp [List.removeAll, old]
    have same : dependencyLinks drawn (ends ++ [e]) = dependencyLinks drawn ends := by
      simp [dependencyLinks, List.eraseDups_append, gone]
    rw [same]
    simp [old]
  · have kept : [e].removeAll ends = [e] := by simp [List.removeAll, old]
    have added : dependencyLinks drawn (ends ++ [e])
        = dependencyLinks drawn ends ++ dependencyLinks drawn [e] := by
      simp [dependencyLinks, List.eraseDups_append, kept]
    rw [added, dependencyLinks_singleton]
    cases drawn.any (·.onSuccess e.1 e.2) <;> simp [old]

theorem foldl_addDependency (drawn : List Link) (ends : List (String × String)) :
    ends.foldl (fun links e => addDependency links e.1 e.2) drawn
      = drawn ++ dependencyLinks drawn ends := by
  induction ends using List.reverseRecOn with
  | nil => simp [dependencyLinks]
  | append_singleton ends e ih =>
    rw [List.foldl_append, ih, List.foldl_cons, List.foldl_nil, dependencyLinks_concat]

/-- An action's dependencies are drawn one after the other, to the node of the action. -/
theorem value_actionDependencies (ix : RefIndex) (links : List Link) (a : Action) (i : Nat) :
    (actionDependencies ix links a i).value
      = (dependencyEnds ix.lookup? [a]).foldl (fun links e => addDependency links e.1 e.2)
        links := by
  rw [actionDependencies, dependencyEnds, List.flatMap_singleton]
  cases ix.lookup? a.localId with
  | none => rfl
  | some target =>
    rw [Option.toList_some, List.flatMap_singleton, List.foldl_map, List.foldl_filterMap,
      Traced.value_foldlM]
    conv_rhs => rw [← List.zipIdx_map_fst 0 (a.dependsOn.getD []), List.foldl_map]
    congr 1
    funext links x
    rw [Traced.value_bind, RefIndex.value_resolve]
    cases ix.lookup? x.1 <;> rfl

theorem value_dependencies (ix : RefIndex) (links : List Link) (actions : List Action) :
    (dependencies ix links actions).value
      = links ++ dependencyLinks links (dependencyEnds ix.lookup? actions) := by
  have all : dependencyEnds ix.lookup? actions
      = actions.flatMap fun a => dependencyEnds ix.lookup? [a] := by
    simp only [dependencyEnds, List.flatMap_singleton]
  rw [← foldl_addDependency, dependencies, Traced.value_foldlM, all, List.foldl_flatMap]
  simp only [value_actionDependencies]
  conv_rhs => rw [← List.zipIdx_map_fst 0 actions, List.foldl_map]

/-- The drawing of a workflow has the links said above, the nodes of its blocks, and a link for each route
    that leads somewhere. -/
theorem Workflow.value_draw (w : Workflow) :
    w.draw.value.links = w.links w.references.lookup?
      ∧ w.draw.value.blocks.flatMap (·.nodes) = w.flow.nodes w.references.lookup?
      ∧ w.draw.value.routes = w.flow.routes.map (·.link? w.references.lookup?) := by
  refine ⟨?_, w.flow.nodes_blockGraphs w.references, w.flow.value_routeLinks w.references⟩
  rw [Workflow.links, ← FlowControl.links_blockGraphs]
  exact value_dependencies _ _ _

/-! ### Errors -/

/-- The errors of the route at a place of the document: one for each end that stands for nothing. -/
def Route.errors (rho : Resolver) (r : Route) (i : Nat) : List Diagnostic :=
  let path := indexed "flow_control.routes" i
  (if (rho r.fromRef).isSome then [] else [⟨.missingSourceRef, path ++ ".from_ref",
      "Route source '" ++ r.fromRef ++ "' does not exist", none⟩])
    ++ if (rho r.toRef).isSome then [] else [⟨.missingTargetRef, path ++ ".to_ref",
      "Route target '" ++ r.toRef ++ "' does not exist", none⟩]

theorem errors_routeEnd (ix : RefIndex) (ref path what : String) (code : DiagnosticCode) :
    (routeEnd ix ref path what code).log.errors
      = if (ix.lookup? ref).isSome then []
        else [⟨code, path, "Route " ++ what ++ " '" ++ ref ++ "' does not exist", none⟩] := by
  simp only [routeEnd, Traced.log_bind, Diagnostics.errors_append, RefIndex.errors_resolve,
    RefIndex.value_resolve]
  cases ix.lookup? ref <;> simp

theorem errors_routeLink (ix : RefIndex) (r : Route) (i : Nat) :
    (routeLink ix r (indexed "flow_control.routes" i)).log.errors = r.errors ix.lookup? i := by
  simp only [routeLink, Traced.log_bind, Diagnostics.errors_append, errors_routeEnd, value_routeEnd,
    Route.errors]
  cases ix.lookup? r.fromRef <;> cases ix.lookup? r.toRef <;> simp

theorem FlowControl.errors_blockGraphs (f : FlowControl) (ix : RefIndex) :
    (f.blockGraphs ix).log.errors = [] := by
  simp [blockGraphs, conditionGraph, gatewayBranches, parallelGraph, loopGraph]

theorem errors_dependencies (ix : RefIndex) (links : List Link) (actions : List Action) :
    (dependencies ix links actions).log.errors = [] := by
  have quiet (links : List Link) (a : Action) (i : Nat) :
      (actionDependencies ix links a i).log.errors = [] := by
    rw [actionDependencies]
    split
    · rfl
    · rw [Traced.errors_foldlM (g := fun _ => [])]
      · simp
      · intro links x
        simp only [Traced.log_bind, Diagnostics.errors_append, RefIndex.errors_resolve]
        cases (ix.resolve x.1 _).value <;> rfl
  rw [dependencies, Traced.errors_foldlM (g := fun _ => [])]
  · simp
  · intro links x
    exact quiet links x.1 x.2

/-- The errors of a workflow's routes. -/
def Workflow.routeErrors (rho : Resolver) (w : Workflow) : List Diagnostic :=
  w.flow.routes.zipIdx.flatMap fun (r, i) => r.errors rho i

/-- No route is in error just if each becomes a link. -/
theorem Workflow.routeErrors_eq_nil {w : Workflow} {rho : Resolver} :
    w.routeErrors rho = [] ↔ (w.flow.routes.all fun r => (r.link? rho).isSome) = true := by
  have each (r : Route) (i : Nat) : r.errors rho i = [] ↔ (r.link? rho).isSome = true := by
    rw [Route.errors, Route.link?]
    cases rho r.fromRef <;> cases rho r.toRef <;> simp
  rw [routeErrors, List.flatMap_eq_nil_iff, List.all_eq_true]
  refine Iff.trans (forall₂_congr ?_) forall_mem_zipIdx_fst
  intro x _
  exact each x.1 x.2

theorem Workflow.code_of_mem_routeErrors {w : Workflow} {rho : Resolver} :
    ∀ e ∈ w.routeErrors rho, e.code = .missingSourceRef ∨ e.code = .missingTargetRef := by
  intro e he
  obtain ⟨⟨r, i⟩, -, he⟩ := List.mem_flatMap.mp he
  rcases List.mem_append.mp he with he | he <;> split at he
  · cases he
  · exact .inl (by rw [List.mem_singleton.mp he])
  · cases he
  · exact .inr (by rw [List.mem_singleton.mp he])

/-- Nothing but a route is an error in a drawing. -/
theorem Workflow.errors_draw (w : Workflow) :
    w.draw.log.errors = w.routeErrors w.references.lookup? := by
  simp only [draw, Traced.log_bind, Diagnostics.errors_append, FlowControl.errors_blockGraphs,
    errors_dependencies, FlowControl.routeLinks, Traced.errors_mapM, errors_routeLink]
  simp [routeErrors, flow]

end Flowgraph
