import Flowgraph.Dag

/-! First positions for the nodes, until who shows the graph computes better ones. Callers may bring a strategy of
    their own; whatever strategy it is, it moves nodes about and changes nothing else. -/

namespace Flowgraph

/-- The node wherever it is shown. -/
def Node.unplaced (n : Node) : Node := { n with position := none }

/-- A way to place nodes: the kind of layout it is shown as, and the nodes with their positions. -/
structure LayoutStrategy where
  kind : LayoutKind
  place : List Node → List Node
  keeps : ∀ nodes, (place nodes).map Node.unplaced = nodes.map Node.unplaced

/-- The distance between nodes above each other. -/
def rankSpacing : Nat := 120

/-- The distance between nodes beside each other. -/
def columnSpacing : Nat := 220

namespace LayoutKind

/-- Where the `i`-th node goes: below the one before, beside it, or wherever the user puts it. -/
def position? (kind : LayoutKind) (i : Nat) : Option Position :=
  match kind with
  | .dagre => some ⟨Double.ofInt 0, Double.ofInt (i * rankSpacing : Nat)⟩
  | .elk => some ⟨Double.ofInt (i * columnSpacing : Nat), Double.ofInt 0⟩
  | .manual => none

/-- Gives every node its position. -/
def place (kind : LayoutKind) (nodes : List Node) : List Node :=
  nodes.zipIdx.map fun (n, i) => { n with position := kind.position? i <|> n.position }

theorem map_unplaced_place (kind : LayoutKind) (nodes : List Node) :
    (kind.place nodes).map Node.unplaced = nodes.map Node.unplaced := by
  calc (kind.place nodes).map Node.unplaced
      = (nodes.zipIdx.map Prod.fst).map Node.unplaced := by rw [place, List.map_map, List.map_map]; rfl
    _ = nodes.map Node.unplaced := by rw [List.zipIdx_map_fst]

/-- The strategy that is built in for a kind. -/
def strategy (kind : LayoutKind) : LayoutStrategy := ⟨kind, kind.place, kind.map_unplaced_place⟩

end LayoutKind

instance : Coe LayoutKind LayoutStrategy := ⟨LayoutKind.strategy⟩

instance : CoeOut LayoutStrategy LayoutKind := ⟨LayoutStrategy.kind⟩

/-- What does not depend on positions stays as it was. -/
theorem LayoutStrategy.map_place (layout : LayoutStrategy) (nodes : List Node) (f : Node → β)
    (hf : ∀ n position, f { n with position := position } = f n) :
    (layout.place nodes).map f = nodes.map f := by
  have wherever (ns : List Node) : ns.map f = (ns.map Node.unplaced).map f := by
    rw [List.map_map]
    exact List.map_congr_left fun n _ => (hf n none).symm
  rw [wherever, layout.keeps, ← wherever]

end Flowgraph
