import Flowgraph.Dag
import Flowgraph.Traced

/-! Checks on a finished graph: every edge joins two of its nodes, every node has an edge, and every
    parallel branch leads to its join. Only the first is required. -/

namespace Flowgraph

/-- The edges out of a node. -/
def edgesFrom (edges : List Edge) (id : String) : List Edge := edges.filter (·.source = id)

/-- The edges out of all other nodes. -/
def edgesBeside (edges : List Edge) (id : String) : List Edge := edges.filter (·.source ≠ id)

theorem edgesBeside_length (edges : List Edge) (id : String) :
    (edgesFrom edges id).length + (edgesBeside edges id).length = edges.length := by
  induction edges with
  | nil => rfl
  | cons e es ih =>
    by_cases h : e.source = id <;> simp_all [edgesFrom, edgesBeside] <;> omega

/-- Whether a path of edges leads from one of the waiting nodes to the goal. The edges out of a node are
    used up when it is visited, so none is followed twice. -/
def leadsTo (goal : String) (edges : List Edge) : (waiting : List String) → Bool
  | [] => false
  | id :: waiting =>
    if id = goal then true
    else leadsTo goal (edgesBeside edges id) ((edgesFrom edges id).map (·.target) ++ waiting)
termination_by waiting => edges.length + waiting.length
decreasing_by
  have split := edgesBeside_length edges id
  simp only [List.length_append, List.length_map, List.length_cons]
  omega

/-- Whether a path of edges leads from one node to another; the empty path does from each to itself. -/
def reaches (edges : List Edge) (start goal : String) : Bool := leadsTo goal edges [start]

namespace Dag

/-- A node without an id. -/
def checkNode (n : Node) (i : Nat) : List Diagnostic :=
  if n.id = "" then
    [⟨.missingRequiredField, indexed "nodes" i ++ ".id", "Node has no id", none⟩]
  else []

/-- The parts of an edge that have to be there, and the nodes that it joins. -/
def checkEdge (ids : List String) (e : Edge) (i : Nat) : List Diagnostic :=
  let path := indexed "edges" i
  let missing := [("id", e.id), ("source", e.source), ("target", e.target)].flatMap
    fun (field, value) =>
      if value = "" then
        [⟨.missingRequiredField, path ++ "." ++ field, "Edge has no " ++ field, none⟩]
      else []
  let source := if ids.contains e.source then [] else
    [⟨.missingSourceRef, path ++ ".source",
      "Edge source '" ++ e.source ++ "' is not a node", none⟩]
  let target := if ids.contains e.target then [] else
    [⟨.missingTargetRef, path ++ ".target",
      "Edge target '" ++ e.target ++ "' is not a node", none⟩]
  missing ++ source ++ target

/-- What makes a graph unusable. -/
def errors (d : Dag) : List Diagnostic :=
  let ids := d.nodes.map (·.id)
  d.nodes.zipIdx.flatMap (fun (n, i) => checkNode n i)
    ++ d.edges.zipIdx.flatMap (fun (e, i) => checkEdge ids e i)

/-- A node that no edge touches. -/
def orphanWarnings (d : Dag) : List Diagnostic :=
  let touched := d.edges.flatMap fun e => [e.source, e.target]
  d.nodes.zipIdx.flatMap fun (n, i) =>
    if touched.contains n.id then []
    else [⟨.orphanNode, indexed "nodes" i,
      "Node '" ++ n.id ++ "' (" ++ n.label ++ ") has no edges", none⟩]

/-- The branches from which no path of edges leads to their join. -/
def unjoinedWarnings (d : Dag) : List Diagnostic :=
  d.nodes.zipIdx.flatMap fun (n, i) => match n.data with
    | .parallel p =>
      (p.branches.eraseDups.filter fun b => !reaches d.edges b p.join).map fun b =>
        ⟨.parallelBranchUnjoined, indexed "nodes" i,
          "Branch '" ++ b ++ "' of '" ++ n.id ++ "' never reaches join '" ++ p.join ++ "'",
          some "Route the end of the branch to the join"⟩
    | _ => []

/-- The report on a graph. -/
def check (d : Dag) : Diagnostics :=
  { Diagnostics.empty with
    errors := d.errors
    warnings := d.orphanWarnings ++ d.unjoinedWarnings }

end Dag

end Flowgraph
