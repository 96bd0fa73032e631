import Flowgraph.Proofs.Acceptance
import Flowgraph.Proofs.Dag.Refinement
import Flowgraph.Proofs.Drawing

/-! Lowering from end to end: what graph is built from a workflow, and what it takes for a document to be
    answered with a graph. -/

namespace Flowgraph

open Json

namespace Lowerer

/-- The graph of a workflow, unless one of its routes leads nowhere. -/
theorem value_graph (l : Lowerer) (w : Workflow) :
    (l.graph w).value
      = if w.flow.routes.all fun r => (r.link? w.references.lookup?).isSome then
          some (l.layout.place (w.entityNodes l.catalog ++ w.flow.nodes w.references.lookup?),
            numberLinks (w.links w.references.lookup?))
        else none := by
  obtain ⟨links, nodes, routes⟩ := w.value_draw
  rw [graph, Traced.value_bind, links, nodes, routes, List.all_map,
    apply_ite Traced.value]
  rfl

theorem errors_graph (l : Lowerer) (w : Workflow) :
    (l.graph w).log.errors = w.routeErrors w.references.lookup? := by
  rw [graph, Traced.log_bind, Diagnostics.errors_append, Workflow.errors_draw]
  split <;> simp

/-- The graph made from a workflow, its nodes and edges, and how it is shown. -/
def assemble (l : Lowerer) (w : Workflow) (nodes : List Node) (edges : List Edge) (ui : UiHints) :
    Dag :=
  { workflowId := w.id, version := w.version, userId := userId? w, nodes := nodes, edges := edges,
    globals := l.globals w.policies, ui := ui }

theorem lower_of_graph {l : Lowerer} {w : Workflow} {nodes : List Node} {edges : List Edge}
    {ui : UiHints} (built : (l.graph w).value = some (nodes, edges)) (shown : l.uiHints = .ok ui)
    (log : Diagnostics) :
    l.lower log w = finish (log ++ (l.graph w).log) (l.assemble w nodes edges ui) := by
  simp only [lower, built, shown, assemble]

theorem Accepts.compile_eq {executable : Value} {w : Workflow} (h : Accepts executable w)
    (l : Lowerer) : l.compile executable = l.lower (validate executable).log w := by
  simp only [compile, h.valid, h.read]
  rfl

/-- A graph that is handed out was built from a workflow and passed its check. -/
theorem exists_of_compile_eq_some {l : Lowerer} {executable : Value} {d : Dag}
    (h : (l.compile executable).document = some d) :
    ∃ w nodes edges ui, Accepts executable w ∧ (l.graph w).value = some (nodes, edges) ∧
      l.uiHints = .ok ui ∧ d = l.assemble w nodes edges ui ∧ d.errors = [] := by
  cases valid : (validate executable).value with
  | false => simp [compile, valid] at h
  | true =>
    cases read : Workflow.ofValue executable with
    | error cause => simp [compile, valid, read, malformed] at h
    | ok w =>
      have accepted : Accepts executable w := ⟨valid, read⟩
      rw [accepted.compile_eq l] at h
      cases built : (l.graph w).value with
      | none => simp [lower, built] at h
      | some graph =>
        obtain ⟨nodes, edges⟩ := graph
        cases shown : l.uiHints with
        | error cause => simp [lower, built, shown, malformed] at h
        | ok ui =>
          rw [lower_of_graph built shown, finish] at h
          obtain ⟨clean, same⟩ := Option.ite_none_right_eq_some.mp h
          cases same
          exact ⟨w, nodes, edges, ui, accepted, built, rfl, rfl, List.isEmpty_iff.mp clean⟩

/-- What a graph is made of. -/
theorem parts_of_compile {l : Lowerer} {executable : Value} {w : Workflow} {d : Dag}
    (read : Workflow.ofValue executable = .ok w)
    (compiled : (l.compile executable).document = some d) :
    d.nodes = l.layout.place (w.entityNodes l.catalog ++ w.flow.nodes w.denoted?) ∧
      d.edges = numberLinks (w.links w.denoted?) ∧ l.uiHints = .ok d.ui := by
  obtain ⟨w', nodes, edges, ui, accepted, built, shown, rfl, -⟩ := exists_of_compile_eq_some compiled
  obtain rfl : w' = w := Except.ok.inj (accepted.read.symm.trans read)
  have lookup : w'.references.lookup? = w'.denoted? := funext accepted.runnable.lookup?_eq_denoted?
  rw [value_graph, lookup] at built
  obtain ⟨-, parts⟩ := Option.ite_none_right_eq_some.mp built
  cases parts
  exact ⟨rfl, rfl, shown⟩

end Lowerer

/-! ### The edges -/

/-- The edge of a link with so many before it. -/
def Link.edge (i : Nat) (k : Link) : Edge :=
  ⟨"e" ++ toString (i + 1), k.source, k.target, k.when, k.condition, k.label⟩

/-- The edge whatever its number. -/
def Edge.link (e : Edge) : Link := ⟨e.source, e.target, e.when, e.condition, e.label⟩

theorem map_link_numberLinks (links : List Link) : (numberLinks links).map Edge.link = links := by
  rw [numberLinks, List.map_map]
  exact List.zipIdx_map_fst 0 links

theorem numberLinks_eq_mapIdx (links : List Link) : numberLinks links = links.mapIdx Link.edge := by
  rw [numberLinks, List.mapIdx_eq_zipIdx_map]
  rfl

/-- The edges built from an accepted document are the links of its workflow, each reference standing for
    what the whole document says, numbered in order. They come out the same when the graph is put together step
    by step. -/
theorem edges_eq_links (l : Lowerer) {executable : Value} {w : Workflow}
    (accepted : Lowerer.Accepts executable w) :
    w.draw.value.links = w.links w.denoted? ∧
    (l.graph w).value.map Prod.snd
      = (if w.flow.routes.all fun r => (r.link? w.denoted?).isSome then
          some ((w.links w.denoted?).mapIdx Link.edge) else none) ∧
    (∀ d, (l.compile executable).document = some d →
      d.edges = (w.links w.denoted?).mapIdx Link.edge) ∧
    (w.assembled l.catalog).2.edges = (w.links w.denoted?).mapIdx Link.edge ∧
    (w.assembled l.catalog).2.lookup? = w.denoted? := by
  have lookup : w.references.lookup? = w.denoted? := funext accepted.runnable.lookup?_eq_denoted?
  have built := Lowerer.value_graph l w
  rw [lookup, numberLinks_eq_mapIdx] at built
  refine ⟨lookup ▸ w.value_draw.1, ?_, ?_, ?_, ?_⟩
  · rw [built, apply_ite (Option.map Prod.snd)]
    rfl
  · intro d h
    obtain ⟨w', nodes, es, ui, accepted', built', -, rfl, -⟩ := Lowerer.exists_of_compile_eq_some h
    obtain rfl : w' = w := Except.ok.inj (accepted'.read.symm.trans accepted.read)
    rw [built'] at built
    obtain ⟨-, parts⟩ := Option.ite_none_right_eq_some.mp built.symm
    exact (Prod.mk.inj (Option.some.inj parts)).2.symm
  · rw [w.edges_assembled, w.value_draw.1, lookup, numberLinks_eq_mapIdx]
  · rw [w.lookup?_assembled, lookup]

/-- A document with blocks of every kind. Two actions share a local id, a condition refers to a loop that
    comes after it, and one parallel block has no name. -/
def everyBlock : Value :=
  let action (id : String) (more : Object) : Value := .obj ([("local_id", .str id),
    ("exec", .obj [("provider", .str "p"), ("action_slug", .str "s"), ("connection_id", .str "c"),
      ("required_inputs", .obj []), ("optional_inputs", .obj []),
      ("retry", .obj []), ("timeout_ms", .int 9), ("rate_limit", .obj [])])] ++ more)
  .obj [
    ("workflow_id", .str "w"), ("version", .int 1),
    ("triggers", .arr [.obj [("local_id", .str "start"), ("exec", .obj [("provider", .str "p"),
      ("trigger_slug", .str "s"), ("configuration", .obj []), ("connection_id", .str "c")])]]),
    ("actions", .arr [action "a" [], action "a" [("depends_on", .arr [.str "start"])]]),
    ("flow_control", .obj [
      ("conditions", .arr [.obj [("local_id", .str "check"), ("incoming_ref", .str "start"),
        ("branches", .arr [.obj [("to_ref", .str "each")], .obj [("to_ref", .str "nowhere")]]),
        ("else_ref", .str "both")]]),
      ("parallel_execution", .arr [.obj [("branches", .arr [.str "a"])],
        .obj [("local_id", .str "both"), ("branches", .arr [.str "a"])]]),
      ("loops", .arr [.obj [("kind", .str "while"), ("incoming_ref", .str "both.join")],
        .obj [("kind", .str "foreach"), ("local_id", .str "each"), ("body_ref", .str "a")]]),
      ("routes", .arr [.obj [("from_ref", .str "a"), ("to_ref", .str "both.join")]])])]

theorem edges_eq_links_everyBlock :
    ∃ w d, Lowerer.Accepts everyBlock w ∧ (Lowerer.standard.compile everyBlock).document = some d ∧
      d.edges.map (fun e => (e.source, e.target))
        = [("t1", "g1"), ("g1", "loop2"), ("g1", "par2"), ("par1", "a2"), ("par2", "a2"),
          ("join2", "loop1"), ("loop2", "a2"), ("a2", "join2"), ("t1", "a2")] ∧
      d.edges = (w.links w.denoted?).mapIdx Link.edge := by
  have ends : (Lowerer.standard.compile everyBlock).document.map
        (fun d => d.edges.map fun e => (e.source, e.target))
      = some [("t1", "g1"), ("g1", "loop2"), ("g1", "par2"), ("par1", "a2"), ("par2", "a2"),
        ("join2", "loop1"), ("loop2", "a2"), ("a2", "join2"), ("t1", "a2")] := by
    decide +kernel
  obtain ⟨d, hd, same⟩ := Option.map_eq_some_iff.mp ends
  obtain ⟨w, nodes, edges, ui, accepted, -⟩ := Lowerer.exists_of_compile_eq_some hd
  exact ⟨w, d, accepted, hd, same, (edges_eq_links Lowerer.standard accepted).2.2.1 d hd⟩

end Flowgraph
