import Flowgraph.Proofs.Dag.Rereading
import Flowgraph.Proofs.Lowering
import Flowgraph.Proofs.Workflow.NormalForm

/-! Graphs that come from lowering, read back. Lowering takes nodes and conditions over from a workflow that was
    read, and hints from defaults that were read, so all of the graph is canonical but for one thing: a branch
    without an expression has the expression `null`, and the edge to where it leads has the condition `null`,
    which is not read back. -/

namespace Flowgraph

open Json Json.Record

/-! ### Hints -/

theorem UiHints.yields_canonical : UiHints.codec.decode.Yields fun u => u.canonical = u := by
  refine Record.decode_yields fun scope => .seq (.seq (.map ?_) .any) .rest
  rintro _ layout - viewport - extra same
  rw [canonical, same]

theorem UiHints.free_of_decode {p : Place} {v : Value} {u : UiHints} (hp : p.origin ≠ .text)
    (h : UiHints.codec.decode p v.toTree = .ok u) : u.extra.FreeOf fieldNames := by
  obtain ⟨ms, rfl⟩ := Record.obj_of_decode_eq_ok rfl h
  refine Record.decode_obj_gives (Q := fun u => u.extra.FreeOf fieldNames) hp h
    (.seq (.seq (.map ?_) .any) (rest_gives_free rfl hp))
  exact fun _ _ _ => by beta_reduce; intros; assumption

/-! ### Nodes -/

theorem Node.eq_of_unplaced {n m : Node} (same : n.unplaced = m.unplaced) :
    n = { m with position := n.position } := by
  cases n
  cases m
  simp_all [unplaced]

/-- Canonical nodes are canonical wherever they are put. -/
theorem LayoutStrategy.map_canonical_place (layout : LayoutStrategy) {nodes : List Node}
    (same : nodes.map Node.canonical = nodes) :
    (layout.place nodes).map Node.canonical = layout.place nodes := by
  refine map_eq_self fun n hn => ?_
  have placed : n.unplaced ∈ nodes.map Node.unplaced := layout.keeps nodes ▸ List.mem_map_of_mem hn
  obtain ⟨m, hm, unplaced⟩ := List.mem_map.mp placed
  have moved := Node.eq_of_unplaced unplaced.symm
  have canonical : m.canonical = m := forall_eq_self_of_map same m hm
  calc n.canonical = { m.canonical with position := n.position } := by rw [moved]; rfl
    _ = n := by rw [canonical, ← moved]

namespace Workflow

/-- The nodes of triggers and actions take their values over as they are. -/
theorem entityNodes_canonical (w : Workflow) (catalog : Option CatalogIndex) :
    w.canonical.entityNodes catalog = (w.entityNodes catalog).map Node.canonical := by
  have triggers : w.canonical.runnableTriggers
      = w.runnableTriggers.map fun x => (x.1.canonical, x.2.canonical) := by
    simp [runnableTriggers, canonical, List.filterMap_map, List.map_filterMap, Function.comp_def,
      Trigger.canonical]
  have actions : w.canonical.runnableActions
      = w.runnableActions.map fun x => (x.1.canonical, x.2.canonical) := by
    simp [runnableActions, canonical, List.filterMap_map, List.map_filterMap, Function.comp_def,
      Action.canonical]
  rw [entityNodes, entityNodes, triggers, actions, List.zipIdx_map, List.zipIdx_map, List.map_append,
    List.map_map, List.map_map, List.map_map, List.map_map]
  rfl

end Workflow

theorem Conditional.payload_canonical (c : Conditional) (rho : Resolver) :
    c.canonical.payload rho = (c.payload rho).canonical := by
  simp [payload, canonical, NodeData.canonical, List.zipIdx_map, ConditionBranch.canonical,
    ConditionBranch.title, GatewayBranch.canonical]

theorem loopNode_canonical (l : LoopBlock) (id : String) (body : Option String) :
    loopNode l.canonical id body = (loopNode l id body).canonical := by
  cases l <;> rfl

theorem LoopBlock.bodyRef_canonical (l : LoopBlock) : l.canonical.bodyRef = l.bodyRef := by
  cases l <;> rfl

/-- The nodes of blocks take their values over as they are. -/
theorem FlowControl.nodes_canonical (f : FlowControl) (rho : Resolver) :
    f.canonical.nodes rho = (f.nodes rho).map Node.canonical := by
  simp only [nodes, canonical, List.map_append, List.zipIdx_map, List.map_map, List.map_flatMap]
  congr 1
  · congr 1
    exact List.map_congr_left fun x _ => congrArg (blockNode _ _) (x.1.payload_canonical rho)
  · refine List.map_congr_left fun x _ => ?_
    simp [LoopBlock.bodyRef_canonical, loopNode_canonical]

/-! ### Conditions of links -/

theorem exists_mem_zipIdx_of_mem {xs : List α} {x : α} (h : x ∈ xs) : ∃ i, (x, i) ∈ xs.zipIdx := by
  obtain ⟨i, hi⟩ := List.mem_iff_getElem?.mp h
  exact ⟨i, List.mem_zipIdx_iff_getElem?.mpr hi⟩

theorem condition_of_mem_linksInto {rho : Resolver} {incoming : Option String} {id : String} {k : Link}
    (drawn : k ∈ linksInto rho incoming id) : k.condition = none := by
  obtain ⟨source, -, rfl⟩ := List.mem_map.mp drawn
  rfl

theorem ParallelBlock.condition_of_mem_links {b : ParallelBlock} {rho : Resolver} {id join : String}
    {k : Link} (drawn : k ∈ b.links rho id join) : k.condition = none := by
  simp only [links, List.mem_append, List.mem_map] at drawn
  rcases drawn with (into | ⟨target, -, rfl⟩) | ⟨target, -, rfl⟩
  · exact condition_of_mem_linksInto into
  · rfl
  · rfl

theorem LoopBlock.condition_of_mem_links {l : LoopBlock} {rho : Resolver} {id : String} {k : Link}
    (drawn : k ∈ l.links rho id) : k.condition = none := by
  simp only [links, List.mem_append, List.mem_map] at drawn
  rcases drawn with into | ⟨target, -, rfl⟩
  · exact condition_of_mem_linksInto into
  · rfl

theorem Route.condition_of_link? {r : Route} {rho : Resolver} {k : Link}
    (drawn : r.link? rho = some k) : k.condition = r.condition := by
  obtain ⟨source, -, drawn⟩ := Option.bind_eq_some_iff.mp drawn
  obtain ⟨target, -, rfl⟩ := Option.map_eq_some_iff.mp drawn
  rfl

/-- The expressions of the branches that lead somewhere are the conditions of a block's links. -/
theorem Conditional.exists_mem_links {c : Conditional} {rho : Resolver} {id : String} {v : Value} :
    (∃ k ∈ c.links rho id, k.condition = some v) ↔
      ∃ b ∈ c.branches, b.expr = v ∧ (rho b.toRef).isSome := by
  constructor
  · rintro ⟨k, drawn, has⟩
    simp only [links, List.mem_append, List.mem_flatMap, List.mem_map, Option.mem_toList] at drawn
    rcases drawn with (into | ⟨x, hx, target, leads, rfl⟩) | ⟨target, -, rfl⟩
    · rw [condition_of_mem_linksInto into] at has
      cases has
    · exact ⟨x.1, List.fst_mem_of_mem_zipIdx hx, Option.some.inj has, Option.isSome_of_eq_some leads⟩
    · cases has
  · rintro ⟨b, hb, rfl, leads⟩
    obtain ⟨j, hj⟩ := exists_mem_zipIdx_of_mem hb
    obtain ⟨target, leads⟩ := Option.isSome_iff_exists.mp leads
    refine ⟨⟨id, target, "success", some b.expr, some (b.title j)⟩, ?_, rfl⟩
    simp only [links, List.mem_append, List.mem_flatMap, List.mem_map, Option.mem_toList]
    exact .inl (.inr ⟨(b, j), hj, target, leads, rfl⟩)

/-- A value is the condition of a link just if it is the expression of a branch that leads somewhere or the
    condition of a route that does. -/
theorem FlowControl.exists_mem_links {f : FlowControl} {rho : Resolver} {v : Value} :
    (∃ k ∈ f.links rho, k.condition = some v) ↔
      (∃ c ∈ f.conditions, ∃ b ∈ c.branches, b.expr = v ∧ (rho b.toRef).isSome) ∨
        ∃ r ∈ f.routes, r.condition = some v ∧ (r.link? rho).isSome := by
  constructor
  · rintro ⟨k, drawn, has⟩
    simp only [links, List.mem_append, List.mem_flatMap, List.mem_filterMap] at drawn
    rcases drawn with ((⟨x, hx, drawn⟩ | ⟨x, -, drawn⟩) | ⟨x, -, drawn⟩) | ⟨r, hr, drawn⟩
    · exact .inl ⟨x.1, List.fst_mem_of_mem_zipIdx hx, Conditional.exists_mem_links.mp ⟨k, drawn, has⟩⟩
    · rw [ParallelBlock.condition_of_mem_links drawn] at has
      cases has
    · rw [LoopBlock.condition_of_mem_links drawn] at has
      cases has
    · rw [Route.condition_of_link? drawn] at has
      exact .inr ⟨r, hr, has, Option.isSome_of_eq_some drawn⟩
  · rintro (⟨c, hc, branch⟩ | ⟨r, hr, has, leads⟩)
    · obtain ⟨i, hi⟩ := exists_mem_zipIdx_of_mem hc
      obtain ⟨k, drawn, has⟩ := Conditional.exists_mem_links.mpr branch
      refine ⟨k, ?_, has⟩
      simp only [links, List.mem_append, List.mem_flatMap]
      exact .inl (.inl (.inl ⟨(c, i), hi, drawn⟩))
    · obtain ⟨k, drawn⟩ := Option.isSome_iff_exists.mp leads
      refine ⟨k, ?_, (Route.condition_of_link? drawn).trans has⟩
      exact List.mem_append_right _ (List.mem_filterMap.mpr ⟨r, hr, drawn⟩)

theorem Workflow.exists_mem_links {w : Workflow} {rho : Resolver} {v : Value} :
    (∃ k ∈ w.links rho, k.condition = some v) ↔ ∃ k ∈ w.flow.links rho, k.condition = some v := by
  constructor
  · rintro ⟨k, drawn, has⟩
    rcases List.mem_append.mp drawn with drawn | drawn
    · exact ⟨k, drawn, has⟩
    · obtain ⟨ends, -, rfl⟩ := List.mem_map.mp drawn
      cases has
  · rintro ⟨k, drawn, has⟩
    exact ⟨k, List.mem_append_left _ drawn, has⟩

/-! ### Graphs -/

/-- The edge without its condition where that is `null`. -/
def Edge.withoutNull (e : Edge) : Edge :=
  { e with condition := e.condition.filter fun v => !v.isNull }

theorem Edge.withoutNull_eq_self {e : Edge} : e.withoutNull = e ↔ e.condition ≠ some .null := by
  obtain ⟨id, source, target, «when», condition, label⟩ := e
  cases condition with
  | none => simp [withoutNull]
  | some v => simp [withoutNull, Option.filter_some, Value.isNull_eq_false]

theorem Edge.canonical_eq_withoutNull {e : Edge}
    (settled : ∀ v, e.condition = some v → v.canonical = v) : e.canonical = e.withoutNull := by
  rw [canonical, withoutNull, option_map_eq_self]
  intro v h
  exact settled v (Option.filter_eq_some_iff.mp h).1

/-- The conditions of the edges are those of the links. -/
theorem exists_mem_numberLinks {links : List Link} {P : Option Value → Prop} :
    (∃ e ∈ numberLinks links, P e.condition) ↔ ∃ k ∈ links, P k.condition := by
  rw [numberLinks_eq_mapIdx]
  constructor
  · rintro ⟨e, he, h⟩
    obtain ⟨i, hi, rfl⟩ := List.mem_mapIdx.mp he
    exact ⟨links[i], List.getElem_mem hi, h⟩
  · rintro ⟨k, hk, h⟩
    obtain ⟨i, hi, rfl⟩ := List.mem_iff_getElem.mp hk
    exact ⟨_, List.mem_mapIdx.mpr ⟨i, hi, rfl⟩, h⟩

/-! ### What was read is canonical, and so is what is drawn from it -/

theorem Route.solid_of_canonical {r : Route} (h : r.canonical = r) {v : Value}
    (has : r.condition = some v) : v.canonical = v ∧ v ≠ .null := by
  have same := congrArg Route.condition h
  simp only [canonical, has, Option.filter_some] at same
  split at same
  · rename_i solid
    exact ⟨Option.some.inj same, by rintro rfl; cases solid⟩
  · cases same

namespace FlowControl

variable {f : FlowControl} (h : f.canonical = f) {rho : Resolver}
include h

theorem expr_canonical {c : Conditional} (hc : c ∈ f.conditions) {b : ConditionBranch}
    (hb : b ∈ c.branches) : b.expr.canonical = b.expr := by
  have block := forall_eq_self_of_map (congrArg FlowControl.conditions h) c hc
  have branch := forall_eq_self_of_map (congrArg Conditional.branches block) b hb
  exact congrArg ConditionBranch.expr branch

/-- The conditions of the links of what was read are canonical. -/
theorem condition_canonical {k : Link} (drawn : k ∈ f.links rho) {v : Value}
    (has : k.condition = some v) : v.canonical = v := by
  rcases exists_mem_links.mp ⟨k, drawn, has⟩ with ⟨c, hc, b, hb, rfl, -⟩ | ⟨r, hr, has, -⟩
  · exact expr_canonical h hc hb
  · have route := forall_eq_self_of_map (congrArg FlowControl.routes h) r hr
    exact (Route.solid_of_canonical route has).1

/-- The condition `null` comes from branches alone. -/
theorem exists_null_link :
    (∃ k ∈ f.links rho, k.condition = some .null) ↔
      ∃ c ∈ f.conditions, ∃ b ∈ c.branches, b.expr = .null ∧ (rho b.toRef).isSome := by
  rw [exists_mem_links]
  refine or_iff_left ?_
  rintro ⟨r, hr, has, -⟩
  have route := forall_eq_self_of_map (congrArg FlowControl.routes h) r hr
  exact (Route.solid_of_canonical route has).2 rfl

end FlowControl

namespace Lowerer

/-- A graph that comes from lowering is canonical but for conditions that are `null`. -/
theorem canonical_of_compile {l : Lowerer} {executable : Value} {w : Workflow} {d : Dag}
    (read : Workflow.ofValue executable = .ok w)
    (compiled : (l.compile executable).document = some d) :
    d.canonical = { d with edges := d.edges.map Edge.withoutNull } := by
  obtain ⟨placed, drawn, shown⟩ := parts_of_compile read compiled
  have same := Workflow.canonical_of_ofValue read
  have flow : w.flow.canonical = w.flow := by rw [← w.flow_canonical, same]
  have nodes : d.nodes.map Node.canonical = d.nodes := by
    rw [placed]
    refine l.layout.map_canonical_place ?_
    rw [List.map_append, ← Workflow.entityNodes_canonical, ← FlowControl.nodes_canonical, same, flow]
  have edges : d.edges.map Edge.canonical = d.edges.map Edge.withoutNull := by
    refine List.map_congr_left fun e he => Edge.canonical_eq_withoutNull fun v has => ?_
    rw [drawn] at he
    obtain ⟨k, hk, has⟩ := exists_mem_numberLinks (P := (· = some v)).mp ⟨e, he, has⟩
    obtain ⟨k, hk, has⟩ := Workflow.exists_mem_links.mp ⟨k, hk, has⟩
    exact FlowControl.condition_canonical flow hk has
  have ui : d.ui.canonical = d.ui := UiHints.yields_canonical _ _ _ shown
  rw [Dag.canonical, nodes, edges, ui]

/-- A graph that comes from lowering is read back just as it was written, but for the conditions of edges that
    are `null`. It is the same graph unless a branch without an expression leads somewhere. -/
theorem ofValue_toValue_of_compile (l : Lowerer) (executable : Value) (w : Workflow) (d : Dag)
    (read : Workflow.ofValue executable = .ok w)
    (compiled : (l.compile executable).document = some d) (finite : d.isFinite = true) :
    Dag.ofValue d.toValue = .ok { d with edges := d.edges.map Edge.withoutNull } ∧
      (Dag.ofValue d.toValue = .ok d ↔
        ∀ c ∈ w.flow.conditions, ∀ b ∈ c.branches, b.expr = .null → w.denoted? b.toRef = none) := by
  obtain ⟨-, drawn, shown⟩ := parts_of_compile read compiled
  have free := UiHints.free_of_decode (by decide) shown
  have again : Dag.ofValue d.toValue = .ok { d with edges := d.edges.map Edge.withoutNull } :=
    (Dag.ofValue_toValue free).mpr ⟨finite, canonical_of_compile read compiled⟩
  refine ⟨again, ?_⟩
  have flow : w.flow.canonical = w.flow := by
    rw [← w.flow_canonical, Workflow.canonical_of_ofValue read]
  calc Dag.ofValue d.toValue = .ok d
      ↔ ∀ e ∈ d.edges, e.condition ≠ some .null := by
        rw [again, Except.ok.injEq]
        refine ⟨fun same e he => ?_, fun solid => ?_⟩
        · exact Edge.withoutNull_eq_self.mp (forall_eq_self_of_map (congrArg Dag.edges same) e he)
        · rw [map_eq_self fun e he => Edge.withoutNull_eq_self.mpr (solid e he)]
    _ ↔ ¬∃ k ∈ w.flow.links w.denoted?, k.condition = some .null := by
        rw [← Workflow.exists_mem_links, ← exists_mem_numberLinks (P := (· = some .null)), ← drawn]
        simp
    _ ↔ _ := by
        rw [FlowControl.exists_null_link flow]
        simp

/-- A document with a schedule, and a condition whose two branches lead to the one action and to nothing. The
    first has the expression that is given, the second has none. -/
def checkedAction (expr : Value) : Value :=
  .obj [
    ("workflow_id", .str "w"), ("version", .str "1.2"), ("user_id", .str "me"),
    ("triggers", .arr [.obj [("local_id", .str "start"), ("schedule", .obj [("cron", .str "0 9 * * *")]),
      ("exec", .obj [("provider", .str "p"), ("trigger_slug", .str "s"), ("configuration", .obj []),
        ("connection_id", .str "c")])]]),
    ("actions", .arr [.obj [("local_id", .str "act"), ("exec", .obj [("provider", .str "p"),
      ("action_slug", .str "s"), ("connection_id", .str "c"), ("required_inputs", .obj [("to", .null)]),
      ("optional_inputs", .obj []), ("retry", .obj []), ("timeout_ms", .int 9),
      ("rate_limit", .obj [])])]]),
    ("flow_control", .obj [("conditions", .arr [.obj [("local_id", .str "check"),
      ("incoming_ref", .str "start"), ("branches", .arr [
        .obj [("expr", expr), ("to_ref", .str "act")], .obj [("to_ref", .str "nowhere")]])]])])]

theorem ofValue_toValue_of_compile_checkedAction :
    ∃ d, (standard.compile (checkedAction (.str "ready"))).document = some d ∧ d.isFinite = true ∧
      d.edges.map (·.condition) = [none, some (.str "ready")] ∧ Dag.ofValue d.toValue = .ok d := by
  have lowered : (standard.compile (checkedAction (.str "ready"))).document.map
      (fun d => (d.isFinite, d.edges.map (·.condition))) = some (true, [none, some (.str "ready")]) := by
    decide +kernel
  have exprs : (Workflow.ofValue (checkedAction (.str "ready"))).toOption.map (fun w =>
      w.flow.conditions.all fun c => c.branches.all fun b =>
        !b.expr.isNull || (w.denoted? b.toRef).isNone) = some true := by
    decide +kernel
  obtain ⟨d, compiled, parts⟩ := Option.map_eq_some_iff.mp lowered
  obtain ⟨finite, conditions⟩ := Prod.mk.inj parts
  obtain ⟨w, nodes, edges, ui, accepted, -⟩ := exists_of_compile_eq_some compiled
  refine ⟨d, compiled, finite, conditions,
    (ofValue_toValue_of_compile standard _ w d accepted.read compiled finite).2.mpr ?_⟩
  rw [accepted.read] at exprs
  simp only [Except.toOption, Option.map_some, Option.some.injEq, List.all_eq_true, Bool.or_eq_true,
    Option.isNone_iff_eq_none] at exprs
  intro c hc b hb null
  refine (exprs c hc b hb).resolve_left ?_
  simp [null, Value.isNull]

/-- The edge of a branch without an expression has the condition `null`, and comes back with none. -/
theorem lowered_null_condition_lost :
    ∃ d x, (standard.compile (checkedAction .null)).document = some d ∧ d.isFinite = true ∧
      Dag.ofValue d.toValue = .ok x ∧ d.edges.map (·.condition) = [none, some .null] ∧
      x.edges.map (·.condition) = [none, none] := by
  have lowered : (standard.compile (checkedAction .null)).document.bind (fun d =>
      (Dag.ofValue d.toValue).toOption.map fun x =>
        (d.isFinite, d.edges.map (·.condition), x.edges.map (·.condition)))
      = some (true, [none, some .null], [none, none]) := by
    decide +kernel
  obtain ⟨d, compiled, lowered⟩ := Option.bind_eq_some_iff.mp lowered
  obtain ⟨x, back, parts⟩ := Option.map_eq_some_iff.mp lowered
  obtain ⟨finite, parts⟩ := Prod.mk.inj parts
  obtain ⟨before, after⟩ := Prod.mk.inj parts
  refine ⟨d, x, compiled, finite, ?_, before, after⟩
  cases again : Dag.ofValue d.toValue with
  | error cause => simp [again, Except.toOption] at back
  | ok y => simpa [again, Except.toOption] using back

end Lowerer

end Flowgraph
