import Flowgraph.Dag.Codec
import Flowgraph.Proofs.Workflow.Rereading

/-! Graphs read back. A graph whose hints do not take the name of a field comes back in canonical form, just if
    every double in it is finite. A node keeps the type of its payload beside its other fields, and an edge
    whose condition is `null` comes back without one. -/

namespace Flowgraph

open Json Json.Record

/-! ### Finite doubles -/

def NodeData.isFinite : NodeData → Bool
  | .action n => n.retry.isFinite
  | .trigger _ | .gatewayIf _ | .parallel _ | .join _ | .loopWhile _ | .loopForeach _ => true

def Position.isFinite (p : Position) : Bool := p.x.isFinite && p.y.isFinite

def Node.isFinite (n : Node) : Bool := n.data.isFinite && n.position.all (·.isFinite)

def Globals.isFinite (g : Globals) : Bool := g.retry.all (·.isFinite)

def Viewport.isFinite (v : Viewport) : Bool := v.x.isFinite && v.y.isFinite && v.zoom.isFinite

/-- Every double of the graph is finite. -/
def Dag.isFinite (d : Dag) : Bool :=
  d.version.isFinite && d.nodes.all (·.isFinite) && d.globals.isFinite && d.ui.viewport.isFinite

/-! ### Canonical form -/

def GatewayBranch.canonical (b : GatewayBranch) : GatewayBranch := { b with expr := b.expr.canonical }

def NodeData.canonical : NodeData → NodeData
  | .trigger n => .trigger { n with
      configuration := n.configuration.canonical
      schedule := n.schedule.map Object.canonical }
  | .action n => .action { n with
      inputTemplate := ⟨n.inputTemplate.required.canonical, n.inputTemplate.optional.canonical⟩ }
  | .gatewayIf n => .gatewayIf { n with branches := n.branches.map GatewayBranch.canonical }
  | .parallel n => .parallel n
  | .join n => .join n
  | .loopWhile n => .loopWhile { n with condition := n.condition.canonical }
  | .loopForeach n => .loopForeach { n with sourceArrayExpr := n.sourceArrayExpr.canonical }

def Node.canonical (n : Node) : Node := { n with data := n.data.canonical }

/-- A condition that is `null` is none. -/
def Edge.canonical (e : Edge) : Edge :=
  { e with condition := (e.condition.filter fun v => !v.isNull).map Value.canonical }

def UiHints.canonical (u : UiHints) : UiHints := { u with extra := u.extra.canonical }

/-- The graph with every value in canonical form. -/
def Dag.canonical (d : Dag) : Dag :=
  { d with
    nodes := d.nodes.map Node.canonical
    edges := d.edges.map Edge.canonical
    ui := d.ui.canonical }

def UiHints.fieldNames : List String := ["layout", "viewport"]

/-! ### Payloads -/

theorem TriggerKind.rereads (k : TriggerKind) : TriggerKind.codec.Rereads k true k :=
  Codec.rereads_variant (by cases k <;> rfl)

theorem TriggerNode.rereads (n : TriggerNode) : TriggerNode.codec.Rereads n true
    { n with configuration := n.configuration.canonical, schedule := n.schedule.map Object.canonical } :=
  Record.rereads_codec (by decide)
    (.seq (.seq (.seq (.seq (.seq (.seq (.seq (.seq (.map (.field (TriggerKind.rereads _))) rfl
      (.field (Codec.rereads_string _))) rfl
      (.field (Codec.rereads_string _))) rfl
      (.field (Codec.rereads_string _))) rfl
      (.field (Codec.rereads_string _))) rfl
      (.field (Codec.rereads_object _))) rfl
      rereads_maybe_string) rfl
      rereads_maybe_string) rfl
      (.maybe (fun _ => nofun) fun o _ => Codec.rereads_object o))
    (by simp) rfl

theorem InputTemplate.rereads (t : InputTemplate) :
    InputTemplate.codec.Rereads t true ⟨t.required.canonical, t.optional.canonical⟩ :=
  Record.rereads_codec (by decide)
    (.seq (.map (.field (Codec.rereads_object _))) rfl (.field (Codec.rereads_object _))) rfl rfl

theorem ActionNode.rereads (n : ActionNode) : ActionNode.codec.Rereads n n.retry.isFinite { n with
    inputTemplate := ⟨n.inputTemplate.required.canonical, n.inputTemplate.optional.canonical⟩ } :=
  Record.rereads_codec (by decide)
    (.seq (.seq (.seq (.seq (.seq (.seq (.seq (.seq (.map (.field (Codec.rereads_string _))) rfl
      (.field (Codec.rereads_string _))) rfl
      (.field (Codec.rereads_string _))) rfl
      (.field (Codec.rereads_string _))) rfl
      (.field (InputTemplate.rereads _))) rfl
      (.field (Codec.rereads_list_same Codec.rereads_string _))) rfl
      (.field (RetryPolicy.rereads _))) rfl
      (.field (Codec.rereads_uint64 _))) rfl
      (.field (RateLimit.rereads _)))
    (by simp) rfl

theorem GatewayBranch.rereads (b : GatewayBranch) : GatewayBranch.codec.Rereads b true b.canonical :=
  Record.rereads_codec (by decide)
    (.seq (.seq (.map (.field (Codec.rereads_string _))) rfl
      (.field (Codec.rereads_value _))) rfl
      rereads_maybe_string)
    rfl rfl

theorem GatewayNode.rereads (n : GatewayNode) : GatewayNode.codec.Rereads n true
    { n with branches := n.branches.map GatewayBranch.canonical } :=
  Record.rereads_codec (by decide)
    (.seq (.map (.field (Codec.rereads_list fun b _ => b.rereads))) rfl rereads_maybe_string)
    (by simp) rfl

theorem ParallelNode.rereads (n : ParallelNode) : ParallelNode.codec.Rereads n true n :=
  Record.rereads_codec (by decide)
    (.seq (.map (.field (Codec.rereads_list_same Codec.rereads_string _))) rfl
      (.field (Codec.rereads_string _)))
    rfl rfl

theorem JoinNode.rereads (n : JoinNode) : JoinNode.codec.Rereads n true n :=
  Record.rereads_codec (by decide)
    (.seq (.map (.field (Codec.rereads_variant (by cases n.mode; rfl)))) rfl
      (.field (Codec.rereads_string _)))
    rfl rfl

theorem LoopWhileNode.rereads (n : LoopWhileNode) : LoopWhileNode.codec.Rereads n true
    { n with condition := n.condition.canonical } :=
  Record.rereads_codec (by decide)
    (.seq (.seq (.map (.field (Codec.rereads_value _))) rfl
      rereads_maybe_string) rfl
      (.field (Codec.rereads_uint32 _)))
    rfl rfl

theorem LoopForeachNode.rereads (n : LoopForeachNode) : LoopForeachNode.codec.Rereads n true
    { n with sourceArrayExpr := n.sourceArrayExpr.canonical } :=
  Record.rereads_codec (by decide)
    (.seq (.seq (.seq (.seq (.map (.field (Codec.rereads_value _))) rfl
      (.field (Codec.rereads_string _))) rfl
      (.field (Codec.rereads_string _))) rfl
      rereads_maybe_string) rfl
      (.field (Codec.rereads_uint32 _)))
    rfl rfl

namespace NodeData

/-- A payload that is read back is one of its type. -/
theorem map_ofSetAside_eq_ok {c : Codec α} {a b : α} {fine : Bool} (h : c.Rereads a fine b)
    (wrap : α → NodeData) {d : NodeData} :
    (Decoder.ofSetAside c.decode (c.encode a).canonical).map wrap = .ok d ↔ fine = true ∧ wrap b = d := by
  rw [map_eq_ok]
  simp only [Decoder.ofSetAside, h ⟨.setAside, 0⟩ _ nofun, and_assoc, exists_and_left, exists_eq_left']

theorem decodePayload_eq_ok (d : NodeData) {x : NodeData} :
    decodePayload d.type d.encodePayload.canonical = .ok x ↔ d.isFinite = true ∧ d.canonical = x := by
  cases d with
  | trigger n => exact map_ofSetAside_eq_ok n.rereads .trigger
  | action n => exact map_ofSetAside_eq_ok n.rereads .action
  | gatewayIf n => exact map_ofSetAside_eq_ok n.rereads .gatewayIf
  | parallel n => exact map_ofSetAside_eq_ok n.rereads .parallel
  | join n => exact map_ofSetAside_eq_ok n.rereads .join
  | loopWhile n => exact map_ofSetAside_eq_ok n.rereads .loopWhile
  | loopForeach n => exact map_ofSetAside_eq_ok n.rereads .loopForeach

/-- Type and payload are found again among the members of a node. -/
theorem ofMembers_eq_ok (d : NodeData) (x : NodeData) :
    ofMembers (Object.canonical d.toMembers) = .ok x ↔ d.isFinite = true ∧ d.canonical = x := by
  have tag : Object.member? (Object.canonical d.toMembers) "type" = some (.str d.type.name) := by
    rw [Object.member?_canonical, toMembers, Object.last?_cons, Object.last?_singleton]
    rfl
  have payload : Object.member? (Object.canonical d.toMembers) "data"
      = some d.encodePayload.canonical := by
    rw [Object.member?_canonical, toMembers, Object.last?_cons, Object.last?_singleton]
    rfl
  have type : Decoder.ofSetAside NodeType.codec.decode (.str d.type.name) = .ok d.type := by
    cases d.type <;> rfl
  rw [ofMembers, tag]
  change (Decoder.ofSetAside NodeType.codec.decode (.str d.type.name) >>= fun type => _) = _ ↔ _
  rw [type, ← decodePayload_eq_ok]
  simp only [payload]
  rfl

end NodeData

/-! ### Graphs -/

theorem Position.rereads (p : Position) : Position.codec.Rereads p p.isFinite p :=
  Record.rereads_codec (by decide)
    (.seq (.map (.field (Codec.rereads_double _))) rfl (.field (Codec.rereads_double _))) rfl rfl

theorem Node.rereads (n : Node) : Node.codec.Rereads n n.isFinite n.canonical := by
  have free : n.data.toMembers.FreeOf ["id", "label", "icon", "position"] := by
    intro m mem
    simp only [NodeData.toMembers, List.mem_cons, List.not_mem_nil, or_false] at mem
    rcases mem with rfl | rfl <;> simp
  -- The payload stands in the midst of the record, and no field behind it takes up other members.
  exact Record.rereads_codec (by decide)
    (.seq_either (.seq_either (.seq_either (.seq (.map (.field (Codec.rereads_string _))) rfl
      (.gathered free n.data.ofMembers_eq_ok)) (.inr rfl)
      (.field (Codec.rereads_string _))) (.inr rfl)
      rereads_maybe_string) (.inr rfl)
      (.maybe (fun _ => nofun) fun p _ => p.rereads))
    (by simp [isFinite]) (by simp [canonical])

theorem Edge.rereads (e : Edge) : Edge.codec.Rereads e true e.canonical :=
  Record.rereads_codec (by decide)
    (.seq (.seq (.seq (.seq (.seq (.map (.field (Codec.rereads_string _))) rfl
      (.field (Codec.rereads_string _))) rfl
      (.field (Codec.rereads_string _))) rfl
      (.defaulted (Codec.rereads_string _))) rfl
      .maybe_value) rfl
      rereads_maybe_string)
    rfl rfl

theorem Globals.rereads (g : Globals) : Globals.codec.Rereads g g.isFinite g :=
  Record.rereads_codec (by decide)
    (.seq (.seq (.seq (.map (.maybe (fun _ => nofun) fun r _ => r.rereads)) rfl
      (.maybe_same (fun _ => nofun) Codec.rereads_uint64)) rfl
      (.maybe_same (fun _ => nofun) RateLimit.rereads)) rfl
      (.field (Codec.rereads_uint32 _)))
    (by simp [isFinite]) (by simp)

theorem Viewport.rereads (v : Viewport) : Viewport.codec.Rereads v v.isFinite v :=
  Record.rereads_codec (by decide)
    (.seq (.seq (.map (.field (Codec.rereads_double _))) rfl
      (.field (Codec.rereads_double _))) rfl
      (.field (Codec.rereads_double _)))
    rfl rfl

theorem LayoutKind.rereads (k : LayoutKind) : LayoutKind.codec.Rereads k true k :=
  Codec.rereads_variant (by cases k <;> rfl)

theorem UiHints.rereads {u : UiHints} (free : u.extra.FreeOf fieldNames) :
    UiHints.codec.Rereads u u.viewport.isFinite u.canonical :=
  Record.rereads_codec (by decide)
    (.seq (.seq (.map (.field (LayoutKind.rereads _))) rfl
      (.field (Viewport.rereads _))) rfl
      (.rest free))
    (by simp) rfl

/-- A graph is read back in canonical form, just if its doubles are finite. -/
theorem Dag.rereads {d : Dag} (free : d.ui.extra.FreeOf UiHints.fieldNames) :
    Dag.codec.Rereads d d.isFinite d.canonical :=
  Record.rereads_codec (by decide)
    (.seq (.seq (.seq (.seq (.seq (.seq (.map (.field (Codec.rereads_string _))) rfl
      (.field (Version.rereads _))) rfl
      rereads_maybe_string) rfl
      (.field (Codec.rereads_list fun n _ => n.rereads))) rfl
      (.field (Codec.rereads_list fun e _ => e.rereads))) rfl
      (.field (Globals.rereads _))) rfl
      (.field (UiHints.rereads free)))
    (by simp [isFinite, Codec.all_true]) rfl

theorem Dag.ofValue_toValue {d : Dag} (free : d.ui.extra.FreeOf UiHints.fieldNames) {x : Dag} :
    Dag.ofValue d.toValue = .ok x ↔ d.isFinite = true ∧ d.canonical = x :=
  Dag.rereads free ⟨.value, 0⟩ x (by decide)

end Flowgraph
