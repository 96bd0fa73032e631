import Flowgraph.Dag.References
import Mathlib.Data.List.Induction

/-! What a reference stands for, said of the document as a whole: among the kinds in their order the first
    that declares the reference, and there the last declaration. Looking it up in the index of a runnable
    workflow gives that node. -/

namespace Flowgraph

/-- The greatest number of an entry with the given name. -/
def lastIndex? (names : List (Option String)) (ref : String) : Option Nat :=
  ((List.range names.length).filter fun i => names[i]? = some (some ref)).getLast?

/-- What the ids of the nodes of a kind start with. -/
def RefKind.stem : RefKind → String
  | .trigger => "t"
  | .action => "a"
  | .gateway => "g"
  | .parallel => "par"
  | .join => "join"
  | .loop => "loop"

namespace Workflow

/-- The control flow, empty if the document has none. -/
def flow (w : Workflow) : FlowControl := w.flowControl.getD .empty

/-- The references under which the entities of a kind are declared, in document order. -/
def declared (w : Workflow) : RefKind → List (Option String)
  | .trigger => w.triggers.map fun t => some t.localId
  | .action => w.actions.map fun a => some a.localId
  | .gateway => w.flow.conditions.map (·.localId)
  | .parallel => w.flow.parallels.map (·.localId)
  | .join => w.flow.parallels.map (·.joinKey?)
  | .loop => w.flow.loops.map (·.localId)

/-- The node that a reference stands for: the last declaration in the first kind that has one. -/
def denoted? (w : Workflow) (ref : String) : Option String :=
  RefKind.lookupOrder.findSome? fun kind =>
    (lastIndex? (w.declared kind) ref).map fun i => nodeId kind.stem (i + 1)

/-- Every trigger and action has an exec block. -/
structure Runnable (w : Workflow) : Prop where
  triggers : ∀ t ∈ w.triggers, t.exec.isSome
  actions : ∀ a ∈ w.actions, a.exec.isSome

end Workflow

/-! ### The ids of each type of node -/

@[simp] theorem NodeType.idAt_gatewayIf (i : Nat) : gatewayIf.idAt i = nodeId "g" (i + 1) := rfl

@[simp] theorem NodeType.idAt_parallel (i : Nat) : parallel.idAt i = nodeId "par" (i + 1) := rfl

@[simp] theorem NodeType.idAt_join (i : Nat) : join.idAt i = nodeId "join" (i + 1) := rfl

@[simp] theorem LoopBlock.idAt_nodeType (l : LoopBlock) (i : Nat) :
    l.nodeType.idAt i = nodeId "loop" (i + 1) := by
  cases l <;> rfl

/-! ### The last declaration -/

/-- To ask something of the items of a list, their places are not needed. -/
theorem forall_mem_zipIdx_fst {xs : List α} {P : α → Prop} :
    (∀ x ∈ xs.zipIdx, P x.1) ↔ ∀ x ∈ xs, P x := by
  conv_rhs => rw [← List.zipIdx_map_fst 0 xs]
  exact List.forall_mem_map.symm

/-- One more name is the last declaration of its own reference and of no other. -/
theorem lastIndex?_concat (names : List (Option String)) (name : Option String) (ref : String) :
    lastIndex? (names ++ [name]) ref
      = if name = some ref then some names.length else lastIndex? names ref := by
  have old : ((List.range names.length).filter fun i => (names ++ [name])[i]? = some (some ref))
      = (List.range names.length).filter fun i => names[i]? = some (some ref) := by
    apply List.filter_congr
    intro i hi
    rw [List.getElem?_append_left (List.mem_range.mp hi)]
  rw [lastIndex?, List.length_append, List.length_singleton, List.range_succ, List.filter_append,
    old]
  by_cases h : name = some ref
  · simp [h]
  · simp [h, lastIndex?]

/-- The entries of one kind, declared under the given names. -/
def entriesOf (kind : RefKind) (names : List (Option String)) : RefIndex :=
  names.zipIdx.flatMap fun (name, i) =>
    name.toList.map fun ref => ⟨kind, ref, nodeId kind.stem (i + 1)⟩

theorem entriesOf_concat (kind : RefKind) (names : List (Option String)) (name : Option String) :
    entriesOf kind (names ++ [name]) = entriesOf kind names
      ++ name.toList.map fun ref => ⟨kind, ref, nodeId kind.stem (names.length + 1)⟩ := by
  simp [entriesOf, List.zipIdx_append]

/-- Where every item is declared, each has its entry. -/
theorem entriesOf_some (kind : RefKind) (xs : List α) (name : α → String) :
    entriesOf kind (xs.map fun x => some (name x))
      = xs.zipIdx.map fun (x, i) => ⟨kind, name x, nodeId kind.stem (i + 1)⟩ := by
  simp [entriesOf, List.zipIdx_map, List.flatMap_map, ← List.map_eq_flatMap]

theorem RefIndex.inKind?_concat (ix : RefIndex) (e : RefEntry) (ref : String) (kind : RefKind) :
    inKind? (ix ++ [e]) ref kind
      = if e.kind = kind ∧ e.ref = ref then some e.node else inKind? ix ref kind := by
  by_cases h : e.kind = kind ∧ e.ref = ref
  · simp [inKind?, h]
  · simp [inKind?, h]

/-- Only the entries of its own kind matter to a lookup. -/
theorem RefIndex.inKind?_filter (ix : RefIndex) (ref : String) (kind : RefKind) :
    inKind? (ix.filter fun e => e.kind = kind) ref kind = inKind? ix ref kind := by
  rw [inKind?, inKind?, ← List.filter_reverse, List.find?_filter]
  congr 2
  funext e
  by_cases h : e.kind = kind <;> simp [h]

/-- Among the entries of one kind the last one of a reference counts. -/
theorem inKind?_entriesOf (kind : RefKind) (names : List (Option String)) (ref : String) :
    RefIndex.inKind? (entriesOf kind names) ref kind
      = (lastIndex? names ref).map fun i => nodeId kind.stem (i + 1) := by
  induction names using List.reverseRecOn with
  | nil => rfl
  | append_singleton names name ih =>
    rw [entriesOf_concat, lastIndex?_concat]
    cases name with
    | none => simpa using ih
    | some own =>
      rw [Option.toList_some, List.map_singleton, RefIndex.inKind?_concat]
      by_cases h : own = ref
      · simp [h]
      · simp [h, ih]

/-! ### The index of a workflow -/

theorem filter_toList_map (kind other : RefKind) (name : Option String) (node : String) :
    ((name.toList.map fun ref => (⟨kind, ref, node⟩ : RefEntry)).filter fun e => e.kind = other)
      = if kind = other then name.toList.map fun ref => ⟨kind, ref, node⟩ else [] := by
  by_cases h : kind = other <;> cases name <;> simp [h]

theorem filter_entriesOf (kind other : RefKind) (names : List (Option String)) :
    ((entriesOf kind names).filter fun e => e.kind = other)
      = if kind = other then entriesOf kind names else [] := by
  simp only [entriesOf, List.filter_flatMap, filter_toList_map]
  by_cases h : kind = other <;> simp [h]

/-- The entries of the parallel blocks: for each its start, then its join. -/
def parallelEntries (f : FlowControl) : RefIndex :=
  f.parallels.zipIdx.flatMap fun (b, i) =>
    b.localId.toList.map (fun ref => ⟨.parallel, ref, NodeType.parallel.idAt i⟩)
      ++ b.joinKey?.toList.map (fun ref => ⟨.join, ref, NodeType.join.idAt i⟩)

theorem filter_parallelEntries (f : FlowControl) (kind : RefKind) :
    ((parallelEntries f).filter fun e => e.kind = kind)
      = if kind = .parallel then entriesOf .parallel (f.parallels.map (·.localId))
        else if kind = .join then entriesOf .join (f.parallels.map (·.joinKey?)) else [] := by
  simp only [parallelEntries, entriesOf, List.filter_flatMap, List.filter_append,
    filter_toList_map, List.zipIdx_map, List.flatMap_map]
  cases kind <;> simp [RefKind.stem]

theorem FlowControl.references_eq (f : FlowControl) :
    f.references = entriesOf .gateway (f.conditions.map (·.localId)) ++ parallelEntries f
      ++ entriesOf .loop (f.loops.map (·.localId)) := by
  simp only [references, parallelEntries, entriesOf, List.zipIdx_map, List.flatMap_map,
    NodeType.idAt_gatewayIf, LoopBlock.idAt_nodeType]
  rfl

namespace Workflow

/-- Pairing each item with its datum loses none of them if all have one. -/
theorem map_fst_filterMap (f : α → Option β) (xs : List α) (h : ∀ x ∈ xs, (f x).isSome) :
    (xs.filterMap fun x => (f x).map fun e => (x, e)).map (·.1) = xs := by
  induction xs with
  | nil => rfl
  | cons x xs ih =>
    obtain ⟨e, he⟩ := Option.isSome_iff_exists.mp (h x (List.mem_cons_self ..))
    simp [he, ih fun y hy => h y (List.mem_cons_of_mem _ hy)]

theorem Runnable.map_runnableTriggers {w : Workflow} (hw : w.Runnable) :
    w.runnableTriggers.map (·.1) = w.triggers := map_fst_filterMap _ _ hw.triggers

theorem Runnable.map_runnableActions {w : Workflow} (hw : w.Runnable) :
    w.runnableActions.map (·.1) = w.actions := map_fst_filterMap _ _ hw.actions

theorem Runnable.references_eq {w : Workflow} (hw : w.Runnable) :
    w.references = entriesOf .trigger (w.declared .trigger)
      ++ entriesOf .action (w.declared .action) ++ w.flow.references := by
  have triggers : w.declared .trigger = w.runnableTriggers.map fun t => some t.1.localId := by
    rw [declared, ← hw.map_runnableTriggers, List.map_map]; rfl
  have actions : w.declared .action = w.runnableActions.map fun a => some a.1.localId := by
    rw [declared, ← hw.map_runnableActions, List.map_map]; rfl
  rw [triggers, actions, entriesOf_some, entriesOf_some]
  rfl

/-- The entries of a kind are its declarations. -/
theorem Runnable.filter_references {w : Workflow} (hw : w.Runnable) (kind : RefKind) :
    (w.references.filter fun e => e.kind = kind) = entriesOf kind (w.declared kind) := by
  rw [hw.references_eq, FlowControl.references_eq]
  simp only [List.filter_append, filter_entriesOf, filter_parallelEntries]
  cases kind <;> simp [declared]

/-- Looking a reference up gives what it stands for in the document. -/
theorem Runnable.lookup?_eq_denoted? {w : Workflow} (hw : w.Runnable) (ref : String) :
    w.references.lookup? ref = w.denoted? ref := by
  have same : RefIndex.inKind? w.references ref
      = fun kind => (lastIndex? (w.declared kind) ref).map fun i => nodeId kind.stem (i + 1) := by
    funext kind
    rw [← RefIndex.inKind?_filter, hw.filter_references, inKind?_entriesOf]
  rw [RefIndex.lookup?, denoted?, same]

end Workflow

end Flowgraph
