import Flowgraph.Proofs.Lowering
import Mathlib.Data.List.Nodup
import Std.Data.String.ToNat

/-! A lowered graph holds together: its nodes are numbered within their kinds and no two share an id, its
    edges are numbered, and every node id that an edge or a payload names is the id of a node. The check at
    the end of lowering therefore never finds an error. -/

namespace Flowgraph

open Json

/-! ### The ids of the nodes -/

/-- The type and id of a node. -/
def Node.key (n : Node) : NodeType × String := (n.data.type, n.id)

/-- The keys of `n` nodes of one type. -/
def numberedKeys (type : NodeType) (stem : String) (n : Nat) : List (NodeType × String) :=
  (List.range n).map fun i => (type, nodeId stem (i + 1))

/-- The keys of the nodes that a workflow becomes, in order. -/
def Workflow.nodeKeys (w : Workflow) : List (NodeType × String) :=
  numberedKeys .trigger "t" w.triggers.length
    ++ numberedKeys .action "a" w.actions.length
    ++ numberedKeys .gatewayIf "g" w.flow.conditions.length
    ++ (List.range w.flow.parallels.length).flatMap (fun i =>
      [(.parallel, nodeId "par" (i + 1)), (.join, nodeId "join" (i + 1))])
    ++ w.flow.loops.zipIdx.map fun (l, i) => (l.nodeType, nodeId "loop" (i + 1))

def Workflow.nodeIds (w : Workflow) : List String := w.nodeKeys.map (·.2)

/-- Whatever depends on the place of an item alone is numbered. -/
theorem map_zipIdx_snd (f : Nat → β) (xs : List α) :
    (xs.zipIdx.map fun x => f x.2) = (List.range xs.length).map f := by
  rw [List.range_eq_range', ← List.zipIdx_map_snd 0 xs, List.map_map]; rfl

theorem flatMap_zipIdx_snd (f : Nat → List β) (xs : List α) :
    (xs.zipIdx.flatMap fun x => f x.2) = (List.range xs.length).flatMap f := by
  rw [List.flatMap_def, List.flatMap_def, map_zipIdx_snd]

theorem key_loopNode (l : LoopBlock) (id : String) (body : Option String) :
    (loopNode l id body).key = (l.nodeType, id) := by
  cases l <;> rfl

theorem FlowControl.map_key_nodes (rho : Resolver) (f : FlowControl) :
    (f.nodes rho).map Node.key
      = numberedKeys .gatewayIf "g" f.conditions.length
        ++ (List.range f.parallels.length).flatMap (fun i =>
          [(.parallel, nodeId "par" (i + 1)), (.join, nodeId "join" (i + 1))])
        ++ f.loops.zipIdx.map fun (l, i) => (l.nodeType, nodeId "loop" (i + 1)) := by
  rw [FlowControl.nodes, List.map_append, List.map_append, List.map_map, List.map_flatMap,
    List.map_map]
  congr 1
  · congr 1
    · exact map_zipIdx_snd (fun i => (NodeType.gatewayIf, nodeId "g" (i + 1))) f.conditions
    · exact flatMap_zipIdx_snd (fun i => [(NodeType.parallel, nodeId "par" (i + 1)),
        (NodeType.join, nodeId "join" (i + 1))]) f.parallels
  · apply List.map_congr_left
    intro x _
    exact key_loopNode x.1 _ _

theorem Workflow.Runnable.map_key_entityNodes {w : Workflow} (hw : w.Runnable)
    (catalog : Option CatalogIndex) :
    (w.entityNodes catalog).map Node.key
      = numberedKeys .trigger "t" w.triggers.length
        ++ numberedKeys .action "a" w.actions.length := by
  have triggers : w.triggers.length = w.runnableTriggers.length := by
    rw [← hw.map_runnableTriggers, List.length_map]
  have actions : w.actions.length = w.runnableActions.length := by
    rw [← hw.map_runnableActions, List.length_map]
  rw [Workflow.entityNodes, List.map_append, List.map_map, List.map_map, triggers, actions]
  congr 1
  · exact map_zipIdx_snd (fun i => (NodeType.trigger, nodeId "t" (i + 1))) w.runnableTriggers
  · exact map_zipIdx_snd (fun i => (NodeType.action, nodeId "a" (i + 1))) w.runnableActions

/-! ### No two nodes share an id -/

/-- Ids with different first letters differ, and so do ids with different numbers. -/
theorem nodeId_inj {s s' : String} {m n : Nat} (h : nodeId s m = nodeId s' n)
    (hs : s.toList.head? = s'.toList.head? → s = s') (ne : s.toList ≠ []) (ne' : s'.toList ≠ []) :
    s = s' ∧ m = n := by
  have letters : s.toList ++ (toString m).toList = s'.toList ++ (toString n).toList := by
    rw [← String.toList_append, ← String.toList_append]; exact congrArg String.toList h
  have first : s.toList.head? = s'.toList.head? := by
    have := congrArg List.head? letters
    rwa [List.head?_append_of_ne_nil _ ne, List.head?_append_of_ne_nil _ ne'] at this
  obtain rfl := hs first
  exact ⟨rfl, Nat.repr_injective ((String.append_right_inj s).mp h)⟩

theorem RefKind.mem_lookupOrder (kind : RefKind) : kind ∈ lookupOrder := by
  cases kind <;> decide

/-- The id of a node tells its kind and number. -/
theorem nodeId_stem_injective :
    Function.Injective fun m : RefKind × Nat => nodeId m.1.stem (m.2 + 1) := by
  have letters : ∀ k ∈ RefKind.lookupOrder, ∀ k' ∈ RefKind.lookupOrder,
      (k.stem.toList.head? = k'.stem.toList.head? → k = k') ∧ k.stem.toList ≠ [] := by
    decide
  rintro ⟨k, i⟩ ⟨k', i'⟩ same
  obtain ⟨first, solid⟩ := letters k k.mem_lookupOrder k' k'.mem_lookupOrder
  obtain ⟨-, solid'⟩ := letters k' k'.mem_lookupOrder k k.mem_lookupOrder
  obtain ⟨stem, number⟩ := nodeId_inj same (fun head => congrArg RefKind.stem (first head)) solid
    solid'
  exact Prod.ext (first (stem ▸ rfl)) (Nat.succ.inj number)

/-- The stem and number of each node id. -/
def Workflow.nodeMarks (w : Workflow) : List (String × Nat) :=
  (List.range w.triggers.length).map (fun i => ("t", i + 1))
    ++ (List.range w.actions.length).map (fun i => ("a", i + 1))
    ++ (List.range w.flow.conditions.length).map (fun i => ("g", i + 1))
    ++ (List.range w.flow.parallels.length).flatMap (fun i => [("par", i + 1), ("join", i + 1)])
    ++ (List.range w.flow.loops.length).map (fun i => ("loop", i + 1))

theorem Workflow.nodeIds_eq (w : Workflow) :
    w.nodeIds = w.nodeMarks.map fun m => nodeId m.1 m.2 := by
  have loops : (w.flow.loops.zipIdx.map fun x => nodeId "loop" (x.2 + 1))
      = (List.range w.flow.loops.length).map fun i => nodeId "loop" (i + 1) :=
    map_zipIdx_snd (fun i => nodeId "loop" (i + 1)) w.flow.loops
  simp only [nodeIds, nodeKeys, nodeMarks, numberedKeys, List.map_append, List.map_map, List.map_flatMap,
    Function.comp_def, List.map_cons, List.map_nil, loops]

/-- Marks without repeats, all with one of the given stems. -/
structure Marked (stems : List String) (marks : List (String × Nat)) : Prop where
  nodup : marks.Nodup
  stem_mem : ∀ m ∈ marks, m.1 ∈ stems

theorem Marked.append {S T : List String} {xs ys : List (String × Nat)} (hx : Marked S xs)
    (hy : Marked T ys) (disjoint : ∀ s ∈ S, s ∉ T) : Marked (S ++ T) (xs ++ ys) := by
  constructor
  · refine List.nodup_append.mpr ⟨hx.nodup, hy.nodup, ?_⟩
    rintro m hm _ hm' rfl
    exact disjoint m.1 (hx.stem_mem m hm) (hy.stem_mem m hm')
  · intro m hm
    rcases List.mem_append.mp hm with hm | hm
    · exact List.mem_append_left _ (hx.stem_mem m hm)
    · exact List.mem_append_right _ (hy.stem_mem m hm)

theorem marked_range (stem : String) (n : Nat) :
    Marked [stem] ((List.range n).map fun i => (stem, i + 1)) := by
  constructor
  · refine List.nodup_range.map fun i j h => ?_
    simpa using h
  · intro m hm
    obtain ⟨i, -, rfl⟩ := List.mem_map.mp hm
    exact List.mem_singleton_self stem

theorem marked_parallels (n : Nat) : Marked ["par", "join"]
    ((List.range n).flatMap fun i => [("par", i + 1), ("join", i + 1)]) := by
  constructor
  · rw [List.nodup_flatMap]
    refine ⟨fun i _ => by simp, List.nodup_range.imp fun {i j} hij => ?_⟩
    simp [Function.onFun, hij.symm]
  · intro m hm
    obtain ⟨i, -, hm⟩ := List.mem_flatMap.mp hm
    rcases List.mem_pair.mp hm with rfl | rfl <;> simp

theorem Workflow.marked_nodeMarks (w : Workflow) :
    Marked ["t", "a", "g", "par", "join", "loop"] w.nodeMarks :=
  ((((marked_range "t" _).append (marked_range "a" _) (by decide)).append
    (marked_range "g" _) (by decide)).append (marked_parallels _) (by decide)).append
    (marked_range "loop" _) (by decide)

/-- The nodes of a workflow all have different ids. -/
theorem Workflow.nodup_nodeIds (w : Workflow) : w.nodeIds.Nodup := by
  have letters : ∀ s ∈ ["t", "a", "g", "par", "join", "loop"],
      ∀ s' ∈ ["t", "a", "g", "par", "join", "loop"],
      (s.toList.head? = s'.toList.head? → s = s') ∧ s.toList ≠ [] ∧ s'.toList ≠ [] := by
    decide
  rw [Workflow.nodeIds_eq]
  refine List.Nodup.map_on ?_ w.marked_nodeMarks.nodup
  intro m hm m' hm' h
  obtain ⟨hs, ne, ne'⟩ := letters m.1 (w.marked_nodeMarks.stem_mem m hm) m'.1
    (w.marked_nodeMarks.stem_mem m' hm')
  obtain ⟨stem, number⟩ := nodeId_inj h hs ne ne'
  exact Prod.ext stem number

/-- Every entity of every kind has its node. -/
theorem Workflow.nodeId_mem_nodeIds {w : Workflow} {i : Nat} (kind : RefKind)
    (h : i < (w.declared kind).length) : nodeId kind.stem (i + 1) ∈ w.nodeIds := by
  have marked : (kind.stem, i + 1) ∈ w.nodeMarks := by
    cases kind <;> simp_all [nodeMarks, declared, RefKind.stem]
  rw [nodeIds_eq]
  exact List.mem_map.mpr ⟨_, marked, rfl⟩

/-! ### References lead to nodes -/

theorem lastIndex?_lt {names : List (Option String)} {ref : String} {i : Nat}
    (h : lastIndex? names ref = some i) : i < names.length :=
  List.mem_range.mp (List.mem_filter.mp (List.mem_of_getLast? h)).1

/-- Whatever a reference stands for is among the given nodes. -/
def Resolver.Into (rho : Resolver) (ids : List String) : Prop :=
  ∀ ref id, rho ref = some id → id ∈ ids

theorem Workflow.denoted?_into (w : Workflow) : Resolver.Into w.denoted? w.nodeIds := by
  intro ref id h
  obtain ⟨kind, -, hk⟩ := List.exists_of_findSome?_eq_some h
  obtain ⟨i, hi, rfl⟩ := Option.map_eq_some_iff.mp hk
  exact nodeId_mem_nodeIds kind (lastIndex?_lt hi)

theorem Workflow.Runnable.lookup?_into {w : Workflow} (hw : w.Runnable) :
    Resolver.Into w.references.lookup? w.nodeIds := by
  rw [funext hw.lookup?_eq_denoted?]
  exact w.denoted?_into

/-- Both ends are among the given nodes. -/
def Link.Within (ids : List String) (l : Link) : Prop := l.source ∈ ids ∧ l.target ∈ ids

section
variable {rho : Resolver} {ids : List String} (into : rho.Into ids)
include into

theorem Resolver.Into.of_bind {ref : Option String} {id : String} (h : ref.bind rho = some id) :
    id ∈ ids := by
  obtain ⟨r, -, hr⟩ := Option.bind_eq_some_iff.mp h
  exact into r id hr

theorem Resolver.Into.of_filterMap {refs : List String} {id : String}
    (h : id ∈ refs.filterMap rho) : id ∈ ids := by
  obtain ⟨r, -, hr⟩ := List.mem_filterMap.mp h
  exact into r id hr

theorem linksInto_within {id : String} (hid : id ∈ ids) (incoming : Option String) :
    ∀ l ∈ linksInto rho incoming id, l.Within ids := by
  intro l hl
  obtain ⟨source, hs, rfl⟩ := List.mem_map.mp hl
  exact ⟨into.of_bind (Option.mem_toList.mp hs), hid⟩

theorem Conditional.links_within {id : String} (hid : id ∈ ids) (c : Conditional) :
    ∀ l ∈ c.links rho id, l.Within ids := by
  intro l hl
  rcases List.mem_append.mp hl with hl | hl
  · rcases List.mem_append.mp hl with hl | hl
    · exact linksInto_within into hid _ l hl
    · obtain ⟨b, -, hb⟩ := List.mem_flatMap.mp hl
      obtain ⟨target, ht, rfl⟩ := List.mem_map.mp hb
      exact ⟨hid, into _ _ (Option.mem_toList.mp ht)⟩
  · obtain ⟨target, ht, rfl⟩ := List.mem_map.mp hl
    exact ⟨hid, into.of_bind (Option.mem_toList.mp ht)⟩

theorem ParallelBlock.links_within {id join : String} (hid : id ∈ ids) (hj : join ∈ ids)
    (b : ParallelBlock) : ∀ l ∈ b.links rho id join, l.Within ids := by
  intro l hl
  rcases List.mem_append.mp hl with hl | hl
  · rcases List.mem_append.mp hl with hl | hl
    · exact linksInto_within into hid _ l hl
    · obtain ⟨target, ht, rfl⟩ := List.mem_map.mp hl
      exact ⟨hid, into.of_filterMap ht⟩
  · obtain ⟨target, ht, rfl⟩ := List.mem_map.mp hl
    exact ⟨hj, into.of_bind (Option.mem_toList.mp ht)⟩

theorem LoopBlock.links_within {id : String} (hid : id ∈ ids) (b : LoopBlock) :
    ∀ l ∈ b.links rho id, l.Within ids := by
  intro l hl
  rcases List.mem_append.mp hl with hl | hl
  · exact linksInto_within into hid _ l hl
  · obtain ⟨target, ht, rfl⟩ := List.mem_map.mp hl
    exact ⟨hid, into.of_bind (Option.mem_toList.mp ht)⟩

theorem Route.link?_within {r : Route} {l : Link} (h : r.link? rho = some l) : l.Within ids := by
  obtain ⟨source, hs, h⟩ := Option.bind_eq_some_iff.mp h
  obtain ⟨target, ht, rfl⟩ := Option.map_eq_some_iff.mp h
  exact ⟨into _ _ hs, into _ _ ht⟩

theorem dependencyLinks_within (drawn : List Link) (actions : List Action) :
    ∀ l ∈ dependencyLinks drawn (dependencyEnds rho actions), l.Within ids := by
  intro l hl
  obtain ⟨⟨source, target⟩, he, rfl⟩ := List.mem_map.mp hl
  have ends := List.mem_eraseDups.mp (List.mem_filter.mp he).1
  obtain ⟨a, -, ha⟩ := List.mem_flatMap.mp ends
  obtain ⟨t, ht, hst⟩ := List.mem_flatMap.mp ha
  obtain ⟨s, hs, same⟩ := List.mem_map.mp hst
  obtain ⟨rfl, rfl⟩ := Prod.mk.inj same
  exact ⟨into.of_filterMap hs, into _ _ (Option.mem_toList.mp ht)⟩

end

/-- The place of an item is less than the length of the list. -/
theorem lt_of_mem_zipIdx {xs : List α} {x : α × Nat} (h : x ∈ xs.zipIdx) : x.2 < xs.length :=
  (List.getElem?_eq_some_iff.mp (List.mem_zipIdx_iff_getElem?.mp h)).1

namespace Workflow

variable {w : Workflow} {rho : Resolver}

theorem gateway_mem_nodeIds {x : Conditional × Nat} (h : x ∈ w.flow.conditions.zipIdx) :
    nodeId "g" (x.2 + 1) ∈ w.nodeIds :=
  nodeId_mem_nodeIds .gateway (by simpa [declared] using lt_of_mem_zipIdx h)

theorem parallel_mem_nodeIds {x : ParallelBlock × Nat} (h : x ∈ w.flow.parallels.zipIdx) :
    nodeId "par" (x.2 + 1) ∈ w.nodeIds :=
  nodeId_mem_nodeIds .parallel (by simpa [declared] using lt_of_mem_zipIdx h)

theorem join_mem_nodeIds {x : ParallelBlock × Nat} (h : x ∈ w.flow.parallels.zipIdx) :
    nodeId "join" (x.2 + 1) ∈ w.nodeIds :=
  nodeId_mem_nodeIds .join (by simpa [declared] using lt_of_mem_zipIdx h)

theorem loop_mem_nodeIds {x : LoopBlock × Nat} (h : x ∈ w.flow.loops.zipIdx) :
    nodeId "loop" (x.2 + 1) ∈ w.nodeIds :=
  nodeId_mem_nodeIds .loop (by simpa [declared] using lt_of_mem_zipIdx h)

/-- Every link of a workflow joins two of its nodes. -/
theorem links_within (into : rho.Into w.nodeIds) : ∀ l ∈ w.links rho, l.Within w.nodeIds := by
  intro l hl
  simp only [links, FlowControl.links, List.mem_append] at hl
  rcases hl with (((hl | hl) | hl) | hl) | hl
  · obtain ⟨x, hx, hl⟩ := List.mem_flatMap.mp hl
    exact x.1.links_within into (gateway_mem_nodeIds hx) l hl
  · obtain ⟨x, hx, hl⟩ := List.mem_flatMap.mp hl
    exact x.1.links_within into (parallel_mem_nodeIds hx) (join_mem_nodeIds hx) l hl
  · obtain ⟨x, hx, hl⟩ := List.mem_flatMap.mp hl
    exact x.1.links_within into (loop_mem_nodeIds hx) l hl
  · obtain ⟨r, -, hr⟩ := List.mem_filterMap.mp hl
    exact Route.link?_within into hr
  · exact dependencyLinks_within into _ w.actions l hl

end Workflow

/-! ### Payloads name nodes -/

/-- The node ids that a payload names. -/
def NodeData.mentions : NodeData → List String
  | .trigger _ => []
  | .action _ => []
  | .gatewayIf n => n.branches.filterMap (·.target) ++ n.elseTarget.toList
  | .parallel n => n.branches ++ [n.join]
  | .join n => [n.parallel]
  | .loopWhile n => n.bodyStart.toList
  | .loopForeach n => n.bodyStart.toList

section
variable {rho : Resolver} {ids : List String} (into : rho.Into ids)
include into

theorem Conditional.mentions_payload (c : Conditional) :
    ∀ id ∈ (c.payload rho).mentions, id ∈ ids := by
  intro id hid
  rcases List.mem_append.mp hid with hid | hid
  · obtain ⟨b, hb, ht⟩ := List.mem_filterMap.mp hid
    obtain ⟨x, -, rfl⟩ := List.mem_map.mp hb
    exact into _ _ ht
  · exact into.of_bind (Option.mem_toList.mp hid)

theorem ParallelBlock.mentions_payload {join : String} (hj : join ∈ ids) (b : ParallelBlock) :
    ∀ id ∈ (b.payload rho join).mentions, id ∈ ids := by
  intro id hid
  rcases List.mem_append.mp hid with hid | hid
  · exact into.of_filterMap hid
  · rwa [List.mem_singleton.mp hid]

theorem LoopBlock.mentions_loopNode (l : LoopBlock) (id : String) :
    ∀ m ∈ (loopNode l id (l.bodyRef.bind rho)).data.mentions, m ∈ ids := by
  intro m hm
  cases l <;> exact into.of_bind (Option.mem_toList.mp hm)

end

/-- Every node id named by a block of a workflow is that of a node. -/
theorem Workflow.mentions_flowNodes {w : Workflow} {rho : Resolver}
    (into : rho.Into w.nodeIds) :
    ∀ n ∈ w.flow.nodes rho, ∀ id ∈ n.data.mentions, id ∈ w.nodeIds := by
  intro n hn
  rcases FlowControl.mem_nodes.mp hn with ⟨x, -, rfl⟩ | ⟨x, hx, rfl⟩ | ⟨x, hx, rfl⟩ | ⟨x, -, rfl⟩
  · exact x.1.mentions_payload into
  · exact x.1.mentions_payload into (join_mem_nodeIds hx)
  · intro id hid
    rw [List.mem_singleton.mp hid]
    exact parallel_mem_nodeIds hx
  · exact x.1.mentions_loopNode into _

/-- Triggers and actions name no nodes. -/
theorem Workflow.mentions_entityNodes (w : Workflow) (catalog : Option CatalogIndex) :
    ∀ n ∈ w.entityNodes catalog, n.data.mentions = [] := by
  intro n hn
  rcases List.mem_append.mp hn with hn | hn <;> obtain ⟨x, -, rfl⟩ := List.mem_map.mp hn <;> rfl

/-! ### The graph as a whole -/

/-- A graph with the nodes of a workflow in which nothing dangles: no two nodes share an id, the edges are
    numbered and join nodes, and every id that a payload names is that of a node. -/
structure Dag.HoldsTogether (d : Dag) (w : Workflow) : Prop where
  keys : d.nodes.map Node.key = w.nodeKeys
  nodup : (d.nodes.map (·.id)).Nodup
  edgeIds : d.edges.map (·.id) = (List.range d.edges.length).map fun i => nodeId "e" (i + 1)
  joins : ∀ e ∈ d.edges, e.source ∈ d.nodes.map (·.id) ∧ e.target ∈ d.nodes.map (·.id)
  mentions : ∀ n ∈ d.nodes, ∀ id ∈ n.data.mentions, id ∈ d.nodes.map (·.id)

theorem map_id_numberLinks (links : List Link) :
    (numberLinks links).map (·.id)
      = (List.range (numberLinks links).length).map fun i => nodeId "e" (i + 1) := by
  have length : (numberLinks links).length = links.length := by simp [numberLinks]
  rw [length, ← map_zipIdx_snd, numberLinks, List.map_map]
  rfl

theorem within_of_mem_numberLinks {links : List Link} {ids : List String}
    (within : ∀ l ∈ links, l.Within ids) :
    ∀ e ∈ numberLinks links, e.source ∈ ids ∧ e.target ∈ ids := by
  intro e he
  obtain ⟨x, hx, rfl⟩ := List.mem_map.mp he
  exact within x.1 (List.fst_mem_of_mem_zipIdx hx)

theorem Workflow.Runnable.holdsTogether {w : Workflow} (hw : w.Runnable) {l : Lowerer} {d : Dag}
    (built : (l.graph w).value = some (d.nodes, d.edges)) : d.HoldsTogether w := by
  rw [Lowerer.value_graph] at built
  obtain ⟨-, parts⟩ := Option.ite_none_right_eq_some.mp built
  obtain ⟨nodes, edges⟩ := Prod.mk.inj (Option.some.inj parts)
  have keys : d.nodes.map Node.key = w.nodeKeys := by
    rw [← nodes, LayoutStrategy.map_place _ _ _ fun _ _ => rfl, List.map_append,
      hw.map_key_entityNodes, FlowControl.map_key_nodes]
    simp [Workflow.nodeKeys]
  have ids : d.nodes.map (·.id) = w.nodeIds := by
    rw [Workflow.nodeIds, ← keys, List.map_map]; rfl
  refine ⟨keys, ids ▸ w.nodup_nodeIds, ?_, ?_, ?_⟩
  · rw [← edges]
    exact map_id_numberLinks _
  · rw [← edges, ids]
    exact within_of_mem_numberLinks (Workflow.links_within hw.lookup?_into)
  · intro n hn
    rw [ids]
    -- Placing a node leaves its payload as it was built.
    have placed : n.data ∈ d.nodes.map (·.data) := List.mem_map_of_mem hn
    rw [← nodes, LayoutStrategy.map_place _ _ _ fun _ _ => rfl] at placed
    obtain ⟨m, hm, same⟩ := List.mem_map.mp placed
    rw [← same]
    rcases List.mem_append.mp hm with hm | hm
    · simp [w.mentions_entityNodes l.catalog m hm]
    · exact Workflow.mentions_flowNodes hw.lookup?_into m hm

theorem nodeId_ne_empty (stem : String) (n : Nat) : nodeId stem n ≠ "" := by
  intro h
  have digits := congrArg String.toList h
  simp [nodeId] at digits

/-- What is required of a graph: its nodes and edges have ids, and each edge joins two of its nodes. -/
structure Dag.Sound (d : Dag) : Prop where
  named : ∀ n ∈ d.nodes, n.id ≠ ""
  numbered : ∀ e ∈ d.edges, e.id ≠ ""
  joins : ∀ e ∈ d.edges, e.source ∈ d.nodes.map (·.id) ∧ e.target ∈ d.nodes.map (·.id)

theorem Dag.checkNode_eq_nil_iff {n : Node} {i : Nat} : checkNode n i = [] ↔ n.id ≠ "" := by
  simp [checkNode]

theorem Dag.checkEdge_eq_nil_iff {ids : List String} {e : Edge} {i : Nat} :
    checkEdge ids e i = [] ↔
      (e.id ≠ "" ∧ e.source ≠ "" ∧ e.target ≠ "") ∧ e.source ∈ ids ∧ e.target ∈ ids := by
  simp only [checkEdge, List.append_eq_nil_iff, List.flatMap_cons, List.flatMap_nil, and_assoc,
    ite_eq_right_iff, ite_eq_left_iff, List.cons_ne_nil, List.contains_iff_mem, imp_false,
    Decidable.not_not, true_and]

theorem Dag.errors_eq_nil_iff {d : Dag} : d.errors = [] ↔ d.Sound := by
  have named : ∀ id ∈ d.nodes.map (·.id), (∀ n ∈ d.nodes, n.id ≠ "") → id ≠ "" := by
    rintro id hid filled
    obtain ⟨n, hn, rfl⟩ := List.mem_map.mp hid
    exact filled n hn
  rw [Dag.errors, List.append_eq_nil_iff, List.flatMap_eq_nil_iff, List.flatMap_eq_nil_iff]
  simp only [checkNode_eq_nil_iff, checkEdge_eq_nil_iff]
  rw [forall_mem_zipIdx_fst (P := fun n : Node => n.id ≠ ""), forall_mem_zipIdx_fst (P := fun e : Edge =>
    (e.id ≠ "" ∧ e.source ≠ "" ∧ e.target ≠ "") ∧
      e.source ∈ d.nodes.map (·.id) ∧ e.target ∈ d.nodes.map (·.id))]
  constructor
  · rintro ⟨nodes, edges⟩
    exact ⟨nodes, fun e he => (edges e he).1.1, fun e he => (edges e he).2⟩
  · intro sound
    refine ⟨sound.named, fun e he => ?_⟩
    obtain ⟨source, target⟩ := sound.joins e he
    exact ⟨⟨sound.numbered e he, named _ source sound.named, named _ target sound.named⟩, source, target⟩

/-- The check finds no error in a graph that holds together. -/
theorem Dag.HoldsTogether.errors_eq_nil {d : Dag} {w : Workflow} (h : d.HoldsTogether w) :
    d.errors = [] := by
  refine Dag.errors_eq_nil_iff.mpr ⟨fun n hn => ?_, fun e he => ?_, h.joins⟩
  · have ids : d.nodes.map (·.id) = w.nodeMarks.map fun m => nodeId m.1 m.2 := by
      rw [← Workflow.nodeIds_eq, Workflow.nodeIds, ← h.keys, List.map_map]; rfl
    have id := List.mem_map_of_mem (f := (·.id)) hn
    rw [ids] at id
    obtain ⟨m, -, same⟩ := List.mem_map.mp id
    exact same ▸ nodeId_ne_empty _ _
  · have numbered := List.mem_map_of_mem (f := (·.id)) he
    rw [h.edgeIds] at numbered
    obtain ⟨i, -, same⟩ := List.mem_map.mp numbered
    exact same ▸ nodeId_ne_empty _ _

section
variable {executable : Value} {w : Workflow} (accepted : Lowerer.Accepts executable w)
  {l : Lowerer} {ui : UiHints} (shown : l.uiHints = .ok ui)
include accepted shown

/-- Whatever is built from an accepted document passes its check and is handed out. -/
theorem Lowerer.Accepts.compile_of_graph {nodes : List Node} {edges : List Edge}
    (built : (l.graph w).value = some (nodes, edges)) :
    l.compile executable
      = ⟨some (l.assemble w nodes edges ui), (validate executable).log ++ (l.graph w).log
        ++ (l.assemble w nodes edges ui).check⟩ ∧ (l.assemble w nodes edges ui).errors = [] := by
  have clean : (l.assemble w nodes edges ui).errors = [] :=
    (accepted.runnable.holdsTogether built).errors_eq_nil
  rw [accepted.compile_eq, Lowerer.lower_of_graph built shown, Lowerer.finish, clean]
  exact ⟨rfl, rfl⟩

/-- The errors of an accepted document are those of its routes. -/
theorem Lowerer.Accepts.errors_compile :
    (l.compile executable).diagnostics.errors = w.routeErrors w.denoted? := by
  have valid := Lowerer.errors_validate_eq_nil.mpr accepted.valid
  have routes := l.errors_graph w
  rw [funext accepted.runnable.lookup?_eq_denoted?] at routes
  cases built : (l.graph w).value with
  | none => simp [accepted.compile_eq, Lowerer.lower, built, valid, routes]
  | some parts =>
    obtain ⟨same, clean⟩ := accepted.compile_of_graph shown built
    simp [same, Dag.check, clean, valid, routes]

/-- An accepted document is answered with a graph just if no route is in error. -/
theorem Lowerer.Accepts.isSome_compile_iff :
    (l.compile executable).document.isSome ↔ w.routeErrors w.denoted? = [] := by
  rw [Workflow.routeErrors_eq_nil]
  have graph := l.value_graph w
  rw [funext accepted.runnable.lookup?_eq_denoted?] at graph
  split at graph
  · rename_i complete
    rw [(accepted.compile_of_graph shown graph).1]
    exact ⟨fun _ => complete, fun _ => rfl⟩
  · rename_i broken
    simp [accepted.compile_eq, Lowerer.lower, graph, broken]

end

/-- A graph that is handed out holds together. Every graph that is built from an accepted document passes
    its check, so it is handed out. -/
theorem compile_holdsTogether (l : Lowerer) (executable : Value) :
    (∀ d, (l.compile executable).document = some d →
      ∃ w, Workflow.ofValue executable = .ok w ∧ d.HoldsTogether w) ∧
    ∀ w nodes edges, Lowerer.Accepts executable w → (l.graph w).value = some (nodes, edges) →
      (∀ d : Dag, d.nodes = nodes → d.edges = edges → d.errors = []) ∧
      ∀ ui, l.uiHints = .ok ui →
        (l.compile executable).document = some (l.assemble w nodes edges ui) := by
  constructor
  · intro d h
    obtain ⟨w, nodes, edges, ui, accepted, built, -, rfl, -⟩ := Lowerer.exists_of_compile_eq_some h
    exact ⟨w, accepted.read, accepted.runnable.holdsTogether built⟩
  · intro w nodes edges accepted built
    have clean : ∀ d : Dag, d.nodes = nodes → d.edges = edges → d.errors = [] := by
      rintro d rfl rfl
      exact (accepted.runnable.holdsTogether built).errors_eq_nil
    refine ⟨clean, fun ui shown => ?_⟩
    rw [(accepted.compile_of_graph shown built).1]

theorem compile_holdsTogether_everyBlock :
    ∃ d w, (Lowerer.standard.compile everyBlock).document = some d ∧
      Workflow.ofValue everyBlock = .ok w ∧ d.HoldsTogether w ∧ d.errors = [] ∧
      d.nodes.map (·.id)
        = ["t1", "a1", "a2", "g1", "par1", "join1", "par2", "join2", "loop1", "loop2"] := by
  have ids : (Lowerer.standard.compile everyBlock).document.map (fun d => d.nodes.map (·.id))
      = some ["t1", "a1", "a2", "g1", "par1", "join1", "par2", "join2", "loop1", "loop2"] := by
    decide +kernel
  obtain ⟨d, hd, same⟩ := Option.map_eq_some_iff.mp ids
  obtain ⟨holds, clean⟩ := compile_holdsTogether Lowerer.standard everyBlock
  obtain ⟨w, read, together⟩ := holds d hd
  obtain ⟨w', nodes, edges, ui, accepted, built, -, rfl, -⟩ := Lowerer.exists_of_compile_eq_some hd
  exact ⟨_, w, hd, read, together, (clean w' nodes edges accepted built).1 _ rfl rfl, same⟩

end Flowgraph
