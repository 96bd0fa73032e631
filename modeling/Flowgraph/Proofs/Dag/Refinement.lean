import Flowgraph.Proofs.Dag.Assembly
import Flowgraph.Proofs.References
import Flowgraph.Proofs.Traced

/-! The graph that is put together step by step is the one that is said at once, in which every number comes from
    a place in the document and every reference from the document as a whole. What has been put together so far
    is described by rows of declarations and links, each step is one from such a description to another, and the
    description of the whole run is the closed form. -/

namespace Flowgraph

/-! ### What has been put together so far -/

/-- Drawings one behind the other. -/
def Subgraph.flatten (gs : List Subgraph) : Subgraph := ⟨gs.flatMap (·.nodes), gs.flatMap (·.links)⟩

theorem Subgraph.mk_append (ns ns' : List Node) (ls ls' : List Link) :
    (⟨ns, ls⟩ : Subgraph) ++ ⟨ns', ls'⟩ = ⟨ns ++ ns', ls ++ ls'⟩ := rfl

theorem Subgraph.append_assoc (g g' g'' : Subgraph) : g ++ g' ++ g'' = g ++ (g' ++ g'') :=
  congrArg₂ Subgraph.mk (List.append_assoc ..) (List.append_assoc ..)

theorem Subgraph.flatten_cons (g : Subgraph) (gs : List Subgraph) : flatten (g :: gs) = g ++ flatten gs := rfl

theorem Subgraph.flatten_append (gs gs' : List Subgraph) : flatten (gs ++ gs') = flatten gs ++ flatten gs' :=
  congrArg₂ Subgraph.mk List.flatMap_append List.flatMap_append

theorem Subgraph.flatten_links (links : α → List Link) (xs : List α) :
    flatten (xs.map fun x => ⟨[], links x⟩) = ⟨[], xs.flatMap links⟩ := by
  simp [flatten, List.flatMap_map]

/-- What has come from a document so far, the declared references and the links as rows. -/
structure Outline where
  nodes : List Node
  entries : RefIndex
  counts : String → Nat
  links : List Link
  log : Diagnostics

namespace Outline

def assembly (o : Outline) : Assembly :=
  ⟨o.nodes, numberLinks o.links, fun kind ref => o.entries.inKind? ref kind, o.counts, o.links.length, o.log⟩

/-- With declarations and nodes added and with ids of some stems used up. -/
def declare (o : Outline) (entries : RefIndex) (nodes : List Node) (stems : List String) (n : Nat) : Outline :=
  { o with
    nodes := o.nodes ++ nodes
    entries := o.entries ++ entries
    counts := fun stem => if stem ∈ stems then o.counts stem + n else o.counts stem }

/-- With declarations added alone. -/
def note (o : Outline) (entries : RefIndex) : Outline := { o with entries := o.entries ++ entries }

/-- With nodes and links added, and a report. -/
def draw (o : Outline) (g : Subgraph) (log : Diagnostics) : Outline :=
  { o with nodes := o.nodes ++ g.nodes, links := o.links ++ g.links, log := o.log ++ log }

/-- With these links, and a report of how they came about. -/
def relink (o : Outline) (links : Traced (List Link)) : Outline :=
  { o with links := links.value, log := o.log ++ links.log }

theorem declare_declare (o : Outline) (es es' : RefIndex) (ns ns' : List Node) (stems : List String)
    (m n : Nat) :
    (o.declare es ns stems m).declare es' ns' stems n = o.declare (es ++ es') (ns ++ ns') stems (m + n) := by
  simp only [declare, List.append_assoc, mk.injEq, true_and, and_true]
  funext stem
  split <;> simp [Nat.add_assoc, *]

theorem draw_draw (o : Outline) (g g' : Subgraph) (log log' : Diagnostics) :
    (o.draw g log).draw g' log' = o.draw (g ++ g') (log ++ log') := by
  simp only [draw, List.append_assoc, Diagnostics.append_assoc]
  rfl

theorem draw_empty (o : Outline) : o.draw .empty .empty = o := by
  simp [draw, Subgraph.empty, Diagnostics.append_empty]

theorem declare_note (o : Outline) (es es' : RefIndex) (ns : List Node) (stems : List String) (n : Nat) :
    (o.declare es ns stems n).note es' = o.declare (es ++ es') ns stems n := by
  simp [declare, note]

theorem relink_relink (o : Outline) (t u : Traced (List Link)) :
    (o.relink t).relink u = o.relink ⟨u.value, t.log ++ u.log⟩ := by
  simp [relink, Diagnostics.append_assoc]

theorem relink_bind (o : Outline) (t : Traced α) (u : α → Traced (List Link)) :
    o.relink (t >>= u) = (o.draw .empty t.log).relink (u t.value) := by
  simp [relink, draw, Subgraph.empty, Diagnostics.append_assoc]

theorem lookup?_assembly (o : Outline) : o.assembly.lookup? = o.entries.lookup? := rfl

theorem hasEdge_assembly (o : Outline) (source target : String) :
    o.assembly.hasEdge source target
      = o.links.any fun l => l.source = source ∧ l.target = target ∧ l.when = Edge.usualWhen := by
  change (numberLinks o.links).any _ = _
  conv_rhs => rw [← List.zipIdx_map_fst 0 o.links]
  rw [numberLinks, List.any_map, List.any_map]
  rfl

end Outline

namespace Assembler

/-- A step leads from one outline to another and gives a result. -/
def Takes (act : Assembler α) (o : Outline) (a : α) (o' : Outline) : Prop :=
  act.run o.assembly = (a, o'.assembly)

theorem Takes.pure (a : α) (o : Outline) : Takes (pure a) o a o := rfl

theorem Takes.done {o o' : Outline} (a : α) (same : o = o') : Takes (Pure.pure a) o a o' := same ▸ .pure a o

theorem Takes.idle (a : α) (o : Outline) : Takes (Pure.pure a) o a (o.draw .empty .empty) :=
  .done a o.draw_empty.symm

theorem Takes.bind {act : Assembler α} {f : α → Assembler β} {o o' o'' : Outline} {a : α} {b : β}
    (first : Takes act o a o') (next : Takes (f a) o' b o'') : Takes (act >>= f) o b o'' := by
  rw [Takes, StateT.run_bind, first]
  exact next

theorem Takes.forM {f : α → Assembler Unit} {xs : List α} {o o' : Outline} {units : List Unit}
    (each : Takes (xs.mapM f) o units o') : Takes (xs.forM f) o () o' := by
  have same (ys : List α) : ys.forM f = ys.mapM f >>= fun _ => Pure.pure () := by
    induction ys with
    | nil => rfl
    | cons y ys ih =>
      change (f y >>= fun _ => ys.forM f) = _
      rw [ih, List.mapM_cons]
      simp
  rw [same]
  exact each.bind (.pure () o')

/-! ### Ids and references -/

theorem takes_nextNode (o : Outline) (type : NodeType) :
    Takes (nextNode type) o (type.idAt (o.counts type.idStem)) (o.declare [] [] [type.idStem] 1) := by
  have counts : (o.declare [] [] [type.idStem] 1).counts
      = fun stem => if stem = type.idStem then o.counts type.idStem + 1 else o.counts stem := by
    funext stem
    by_cases same : stem = type.idStem <;> simp [Outline.declare, same]
  have after : (o.declare [] [] [type.idStem] 1).assembly
      = { o.assembly with nodeCount := (o.declare [] [] [type.idStem] 1).counts } := by
    simp [Outline.declare, Outline.assembly]
  rw [Takes, after, counts]
  rfl

theorem takes_forM_insert (o : Outline) (kind : RefKind) (node : String) (ref : Option String) :
    Takes (ref.toList.forM (insert kind node)) o () (o.note (ref.toList.map fun ref => ⟨kind, ref, node⟩)) := by
  cases ref with
  | none => simpa [Outline.note] using Takes.pure () o
  | some ref =>
    have after : (o.note [⟨kind, ref, node⟩]).assembly
        = { o.assembly with index := fun k r =>
            if kind = k ∧ ref = r then some node else o.entries.inKind? r k } := by
      simp [Outline.note, Outline.assembly, RefIndex.inKind?_concat]
    rw [Takes, Option.toList_some, List.map_singleton, after]
    rfl

theorem takes_pushNode (o : Outline) (node : Node) :
    Takes (pushNode node) o () (o.draw ⟨[node], []⟩ .empty) := by
  have after : (o.draw ⟨[node], []⟩ .empty).assembly = { o.assembly with nodes := o.nodes ++ [node] } := by
    simp [Outline.draw, Outline.assembly, Diagnostics.append_empty]
  rw [Takes, after]
  rfl

theorem takes_addEdge (o : Outline) (l : Link) :
    Takes (addEdge l) o () (o.draw ⟨[], [l]⟩ .empty) := by
  have after : (o.draw ⟨[], [l]⟩ .empty).assembly = { o.assembly with
      edges := numberLinks o.links
        ++ [⟨nodeId "e" (o.links.length + 1), l.source, l.target, l.when, l.condition, l.label⟩]
      edgeCount := o.links.length + 1 } := by
    simp [Outline.draw, Outline.assembly, Diagnostics.append_empty, numberLinks, List.zipIdx_append]
  rw [Takes, after]
  rfl

/-- Ids are used up one after the other, by what each of a row declares. -/
theorem takes_mapM_declare {f : α → Assembler β} {stems : List String} {id : α → Nat → β}
    {entries : α → Nat → RefIndex} {nodes : α → Nat → List Node}
    (step : ∀ x n o, (∀ stem ∈ stems, o.counts stem = n) →
      Takes (f x) o (id x n) (o.declare (entries x n) (nodes x n) stems 1)) (xs : List α) (n : Nat)
    {o : Outline} (even : ∀ stem ∈ stems, o.counts stem = n) :
    Takes (xs.mapM f) o ((xs.zipIdx n).map fun x => id x.1 x.2)
      (o.declare ((xs.zipIdx n).flatMap fun x => entries x.1 x.2)
        ((xs.zipIdx n).flatMap fun x => nodes x.1 x.2) stems xs.length) := by
  induction xs generalizing n o with
  | nil =>
    have same : o.declare [] [] stems 0 = o := by simp [Outline.declare]
    simpa [same] using Takes.pure [] o
  | cons x xs ih =>
    have next : ∀ stem ∈ stems, (o.declare (entries x n) (nodes x n) stems 1).counts stem = n + 1 := by
      intro stem mem
      simp [Outline.declare, mem, even stem mem]
    have rest := ih (n + 1) next
    rw [Outline.declare_declare, Nat.add_comm 1] at rest
    rw [List.mapM_cons]
    exact (step x n o even).bind (rest.bind (.pure _ _))

theorem takes_reserveId (o : Outline) (type : NodeType) (kind : RefKind) (ref : Option String) :
    Takes (reserveId type kind ref) o (type.idAt (o.counts type.idStem))
      (o.declare (ref.toList.map fun ref => ⟨kind, ref, type.idAt (o.counts type.idStem)⟩) []
        [type.idStem] 1) := by
  have noted := takes_forM_insert (o.declare [] [] [type.idStem] 1) kind
    (type.idAt (o.counts type.idStem)) ref
  rw [Outline.declare_note, List.nil_append] at noted
  exact (takes_nextNode o type).bind (noted.bind (.pure _ _))

theorem takes_reserveParallel (b : ParallelBlock) (n : Nat) (o : Outline)
    (even : ∀ stem ∈ ["par", "join"], o.counts stem = n) :
    Takes (reserveParallel b) o (NodeType.parallel.idAt n, NodeType.join.idAt n)
      (o.declare (b.localId.toList.map (fun ref => ⟨.parallel, ref, NodeType.parallel.idAt n⟩)
          ++ b.joinKey?.toList.map fun ref => ⟨.join, ref, NodeType.join.idAt n⟩) []
        ["par", "join"] 1) := by
  have start := takes_nextNode o .parallel
  rw [show o.counts NodeType.parallel.idStem = n from even "par" (by simp)] at start
  have join := takes_nextNode (o.declare [] [] [NodeType.parallel.idStem] 1) .join
  have both : (o.declare [] [] [NodeType.parallel.idStem] 1).declare [] [] [NodeType.join.idStem] 1
      = o.declare [] [] ["par", "join"] 1 := by
    simp only [Outline.declare, Outline.mk.injEq, List.append_nil, true_and, and_true]
    funext stem
    by_cases par : stem = "par" <;> by_cases join : stem = "join" <;> simp_all [NodeType.idStem]
  rw [both, show (o.declare [] [] [NodeType.parallel.idStem] 1).counts NodeType.join.idStem = n from
    even "join" (by simp)] at join
  have noted := takes_forM_insert (o.declare [] [] ["par", "join"] 1) .parallel
    (NodeType.parallel.idAt n) b.localId
  rw [Outline.declare_note, List.nil_append] at noted
  have noted' := takes_forM_insert (o.declare (b.localId.toList.map fun ref =>
    ⟨.parallel, ref, NodeType.parallel.idAt n⟩) [] ["par", "join"] 1) .join (NodeType.join.idAt n) b.joinKey?
  rw [Outline.declare_note] at noted'
  exact start.bind (join.bind (noted.bind (noted'.bind (.pure _ _))))

/-- Ids of one stem for a row, each noted for its reference. -/
theorem takes_mapM_reserveId (stem : String) (type : α → NodeType) (alike : ∀ x, (type x).idStem = stem)
    (kind : RefKind) (ref : α → Option String) (xs : List α) {o : Outline} (fresh : o.counts stem = 0) :
    Takes (xs.mapM fun x => reserveId (type x) kind (ref x)) o (xs.zipIdx.map fun x => (type x.1).idAt x.2)
      (o.declare (xs.zipIdx.flatMap fun x =>
          (ref x.1).toList.map fun name => ⟨kind, name, (type x.1).idAt x.2⟩) [] [stem] xs.length) := by
  have step : ∀ x n o, (∀ s ∈ [stem], o.counts s = n) →
      Takes (reserveId (type x) kind (ref x)) o ((type x).idAt n)
        (o.declare ((ref x).toList.map fun name => ⟨kind, name, (type x).idAt n⟩) [] [stem] 1) := by
    intro x n o count
    have reserved := takes_reserveId o (type x) kind (ref x)
    rw [alike, count stem List.mem_cons_self] at reserved
    exact reserved
  have all := takes_mapM_declare step xs 0 (o := o) (by simpa using fresh)
  have bare : (xs.zipIdx.flatMap fun _ => ([] : List Node)) = [] := List.flatMap_eq_nil_iff.mpr fun _ _ => rfl
  rwa [bare] at all

/-- The ids of the blocks by their places, and what is noted with them is what the blocks declare. -/
theorem takes_reserve (f : FlowControl) {o : Outline}
    (fresh : ∀ stem ∈ ["g", "par", "join", "loop"], o.counts stem = 0) :
    ∃ counts, Takes (reserve f) o
      ⟨f.conditions.zipIdx.map fun x => NodeType.gatewayIf.idAt x.2,
        f.parallels.zipIdx.map fun x => (NodeType.parallel.idAt x.2, NodeType.join.idAt x.2),
        f.loops.zipIdx.map fun x => x.1.nodeType.idAt x.2⟩
      { o with entries := o.entries ++ f.references, counts := counts } := by
  simp only [List.forall_mem_cons] at fresh
  obtain ⟨gateway, parallel, join, loop, -⟩ := fresh
  obtain ⟨o', ids, same⟩ : ∃ o', Takes (reserve f) o
      ⟨f.conditions.zipIdx.map fun x => NodeType.gatewayIf.idAt x.2,
        f.parallels.zipIdx.map fun x => (NodeType.parallel.idAt x.2, NodeType.join.idAt x.2),
        f.loops.zipIdx.map fun x => x.1.nodeType.idAt x.2⟩ o' ∧
      o' = { o with entries := o.entries ++ f.references, counts := o'.counts } := by
    refine ⟨_, (takes_mapM_reserveId "g" (fun _ => .gatewayIf) (fun _ => rfl) .gateway Conditional.localId
      f.conditions gateway).bind (Takes.bind (takes_mapM_declare takes_reserveParallel f.parallels 0 ?_)
      (Takes.bind (takes_mapM_reserveId "loop" LoopBlock.nodeType (fun l => ?_) .loop LoopBlock.localId
        f.loops ?_) (.pure _ _))), ?_⟩
    · simp [Outline.declare, parallel, join]
    · cases l <;> rfl
    · simp [Outline.declare, loop]
    · simp [Outline.declare, FlowControl.references]
  exact ⟨_, same ▸ ids⟩

/-- A row of parts that become nodes, but for some of them. -/
theorem takes_forM_place (type : NodeType) (kind : RefKind) {g : α → Option β} (ref : β → String)
    (node : β → String → Node) {f : α → Assembler Unit}
    (places : ∀ x, f x = (g x).elim (pure ()) fun y => place type kind (ref y) (node y)) (xs : List α)
    {o : Outline} (fresh : o.counts type.idStem = 0) :
    Takes (xs.forM f) o ()
      (o.declare ((xs.filterMap g).zipIdx.map fun x => ⟨kind, ref x.1, type.idAt x.2⟩)
        ((xs.filterMap g).zipIdx.map fun x => node x.1 (type.idAt x.2)) [type.idStem]
        (xs.filterMap g).length) := by
  have skip (xs : List α) : xs.forM f = (xs.filterMap g).forM fun y => place type kind (ref y) (node y) := by
    induction xs with
    | nil => rfl
    | cons x xs ih =>
      change (f x >>= fun _ => xs.forM f) = _
      rw [ih, places]
      cases found : g x with
      | none => rw [List.filterMap_cons_none found]; rfl
      | some y => rw [List.filterMap_cons_some found]; rfl
  have step : ∀ y n o, (∀ stem ∈ [type.idStem], o.counts stem = n) →
      Takes (place type kind (ref y) (node y)) o ()
        (o.declare [⟨kind, ref y, type.idAt n⟩] [node y (type.idAt n)] [type.idStem] 1) := by
    intro y n o count
    have reserved := takes_reserveId o type kind (ref y)
    have pushed := takes_pushNode (o.declare [⟨kind, ref y, type.idAt n⟩] [] [type.idStem] 1)
      (node y (type.idAt n))
    rw [count _ List.mem_cons_self] at reserved
    have same : (o.declare [⟨kind, ref y, type.idAt n⟩] [] [type.idStem] 1).draw
        ⟨[node y (type.idAt n)], []⟩ .empty
        = o.declare [⟨kind, ref y, type.idAt n⟩] [node y (type.idAt n)] [type.idStem] 1 := by
      simp [Outline.declare, Outline.draw, Diagnostics.append_empty]
    rw [same] at pushed
    exact reserved.bind pushed
  have all := (takes_mapM_declare step (xs.filterMap g) 0 (o := o) (by simpa using fresh)).forM
  rw [skip]
  simpa only [List.map_eq_flatMap] using all

/-! ### Reports and drawings -/

/-- A step draws nothing and reports what the given one does, once the given references are noted. -/
def Reports (ix : RefIndex) (act : Assembler α) (t : Traced α) : Prop :=
  ∀ o, o.entries = ix → Takes act o t.value (o.draw .empty t.log)

/-- A step draws and reports what the given one does. -/
def Draws (ix : RefIndex) (act : Assembler Unit) (t : Traced Subgraph) : Prop :=
  ∀ o, o.entries = ix → Takes act o () (o.draw t.value t.log)

section
variable {ix : RefIndex}

theorem Reports.pure (a : α) : Reports ix (pure a) (pure a) := fun o _ => .idle a o

/-- What comes after a step that draws nothing. -/
theorem Reports.takes {act : Assembler α} {t : Traced α} {f : α → Assembler β} {o : Outline} {b : β}
    {g : Subgraph} {log : Diagnostics} (first : Reports ix act t) (noted : o.entries = ix)
    (next : ∀ o, o.entries = ix → Takes (f t.value) o b (o.draw g log)) :
    Takes (act >>= f) o b (o.draw g (t.log ++ log)) := by
  have rest := next (o.draw .empty t.log) noted
  rw [Outline.draw_draw] at rest
  exact (first o noted).bind rest

theorem Reports.bind {act : Assembler α} {t : Traced α} {f : α → Assembler β} {u : α → Traced β}
    (first : Reports ix act t) (next : ∀ a, Reports ix (f a) (u a)) : Reports ix (act >>= f) (t >>= u) := by
  intro o noted
  rw [Traced.value_bind, Traced.log_bind]
  exact first.takes noted (next t.value)

theorem Reports.mapM {f : α → Assembler β} {t : α → Traced β} (each : ∀ x, Reports ix (f x) (t x))
    (xs : List α) : Reports ix (xs.mapM f) (xs.mapM t) := by
  induction xs with
  | nil => exact .pure []
  | cons x xs ih =>
    rw [List.mapM_cons, List.mapM_cons]
    exact (each x).bind fun b => ih.bind fun bs => .pure (b :: bs)

theorem reports_report (t : Traced Unit) : Reports ix (report t) t := by
  intro o _
  have after : (o.draw .empty t.log).assembly = { o.assembly with log := o.log ++ t.log } := by
    simp [Outline.draw, Outline.assembly, Subgraph.empty]
  rw [Takes, after]
  rfl

theorem Reports.ite {c : Prop} [Decidable c] {act act' : Assembler α} {t t' : Traced α}
    (yes : Reports ix act t) (no : Reports ix act' t') :
    Reports ix (if c then act else act') (if c then t else t') := by
  split
  · exact yes
  · exact no

theorem reports_resolve (ref path : String) : Reports ix (resolve ref path) (ix.resolve ref path) := by
  rintro o rfl
  have read : Takes get o o.assembly o := rfl
  refine read.bind ?_
  rw [RefIndex.resolve, o.lookup?_assembly]
  exact Reports.ite ((reports_report _).bind fun _ => .pure _) (.pure _) o rfl

theorem reports_resolve? (ref : Option String) (path : String) :
    Reports ix (resolve? ref path) (ix.resolve? ref path) := by
  cases ref with
  | none => exact .pure none
  | some ref => exact reports_resolve ref path

theorem Reports.draws {act : Assembler α} {t : Traced α} {f : α → Assembler Unit} {u : α → Traced Subgraph}
    (first : Reports ix act t) (next : ∀ a, Draws ix (f a) (u a)) : Draws ix (act >>= f) (t >>= u) := by
  intro o noted
  rw [Traced.value_bind, Traced.log_bind]
  exact first.takes noted (next t.value)

/-- What comes after a drawing. -/
theorem Draws.takes {act : Assembler Unit} {t : Traced Subgraph} {act' : Assembler β} {o : Outline} {b : β}
    {g : Subgraph} {log : Diagnostics} (first : Draws ix act t) (noted : o.entries = ix)
    (next : ∀ o, o.entries = ix → Takes act' o b (o.draw g log)) :
    Takes (do act; act') o b (o.draw (t.value ++ g) (t.log ++ log)) := by
  have rest := next (o.draw t.value t.log) noted
  rw [Outline.draw_draw] at rest
  exact (first o noted).bind rest

theorem Draws.andThen {act act' : Assembler Unit} {t t' : Traced Subgraph} (first : Draws ix act t)
    (next : Draws ix act' t') :
    Draws ix (do act; act') (do let g ← t; let g' ← t'; Pure.pure (g ++ g')) := by
  intro o noted
  simpa [Diagnostics.append_empty] using first.takes noted next

theorem Draws.of_eq {act : Assembler Unit} {t t' : Traced Subgraph} (drawn : Draws ix act t) (same : t = t') :
    Draws ix act t' := same ▸ drawn

theorem draws_addEdge (l : Link) : Draws ix (addEdge l) (Pure.pure ⟨[], [l]⟩) :=
  fun o _ => takes_addEdge o l

theorem draws_pushNode (node : Node) : Draws ix (pushNode node) (Pure.pure ⟨[node], []⟩) :=
  fun o _ => takes_pushNode o node

theorem draws_wire (node : Option String) (link : String → Link) :
    Draws ix (wire node link) (Pure.pure ⟨[], node.toList.map link⟩) := by
  cases node with
  | none => exact fun o _ => .idle () o
  | some node => exact draws_addEdge (link node)

theorem Draws.forM {f : α → Assembler Unit} {t : α → Traced Subgraph} (each : ∀ x, Draws ix (f x) (t x))
    (xs : List α) : Draws ix (xs.forM f) (Subgraph.flatten <$> xs.mapM t) := by
  induction xs with
  | nil => exact fun o _ => .idle () o
  | cons x xs ih =>
    have same : Subgraph.flatten <$> (x :: xs).mapM t
        = (do let g ← t x; let g' ← Subgraph.flatten <$> xs.mapM t; Pure.pure (g ++ g')) := by
      rw [List.mapM_cons]
      simp [Subgraph.flatten_cons]
    rw [same]
    exact (each x).andThen ih

theorem draws_lowerCondition (c : Conditional) (id path : String) :
    Draws ix (lowerCondition c id path) (conditionGraph ix c id path) := by
  refine Reports.draws (.mapM (fun x => Reports.bind (reports_resolve _ _) fun _ => .pure _) _)
    fun branches => ?_
  refine Reports.draws (reports_resolve? _ _) fun elseTarget => ?_
  refine Reports.draws (reports_resolve? _ _) fun source => ?_
  refine (Draws.andThen (draws_wire _ _) (Draws.andThen (Draws.forM (fun b => draws_wire _ _) branches)
    (Draws.andThen (draws_wire _ _) (draws_pushNode _)))).of_eq ?_
  simp [Subgraph.flatten_links, Subgraph.mk_append, incomingLink]

theorem draws_lowerParallel (b : ParallelBlock) (start join path : String) :
    Draws ix (lowerParallel b start join path) (parallelGraph ix b start join path) := by
  refine Reports.draws (.mapM (fun x => reports_resolve _ _) _) fun targets => ?_
  refine Reports.draws (reports_resolve? _ _) fun source => ?_
  refine (Draws.andThen (draws_wire _ _) (Draws.andThen (Draws.forM (fun target => draws_addEdge _) _)
    (Reports.draws (reports_resolve? _ _) fun next => Draws.andThen (draws_wire _ _)
      (Draws.andThen (draws_pushNode _) (draws_pushNode _))))).of_eq ?_
  simp [Subgraph.flatten_links, Subgraph.mk_append, incomingLink, ← List.map_eq_flatMap]

theorem draws_lowerLoop (l : LoopBlock) (id path : String) :
    Draws ix (lowerLoop l id path) (loopGraph ix l id path) := by
  refine Reports.draws (reports_resolve? _ _) fun body => ?_
  refine Reports.draws (reports_resolve? _ _) fun source => ?_
  refine (Draws.andThen (draws_wire _ _) (Draws.andThen (draws_wire _ _) (draws_pushNode _))).of_eq ?_
  simp [Subgraph.mk_append, incomingLink]

theorem reports_lowerEnd (ref path what : String) (code : DiagnosticCode) :
    Reports ix (lowerEnd ref path what code) (routeEnd ix ref path what code) :=
  Reports.bind (reports_resolve _ _) fun _ => .ite (.bind (reports_report _) fun _ => .pure _) (.pure _)

theorem takes_lowerRoute (r : Route) (path : String) {o : Outline} (noted : o.entries = ix) :
    Takes (lowerRoute r path) o (routeLink ix r path).value.isSome
      (o.draw ⟨[], (routeLink ix r path).value.toList⟩ (routeLink ix r path).log) := by
  simp only [routeLink, Traced.value_bind, Traced.log_bind]
  refine Reports.takes (reports_lowerEnd _ _ _ _) noted fun o noted => ?_
  refine Reports.takes (reports_lowerEnd _ _ _ _) noted fun o noted => ?_
  generalize (routeEnd ix r.fromRef _ _ _).value = source
  generalize (routeEnd ix r.toRef _ _ _).value = target
  cases source with
  | none => exact .idle false o
  | some source => cases target with
    | none => exact .idle false o
    | some target => exact (takes_addEdge o _).bind (.pure true _)

/-- Steps one after the other, each of which draws a link or fails, and whether none of them has failed. -/
theorem takes_foldlM_and {f : α → Assembler Bool} {t : α → Traced (Option Link)}
    (each : ∀ x {o : Outline}, o.entries = ix →
      Takes (f x) o (t x).value.isSome (o.draw ⟨[], (t x).value.toList⟩ (t x).log))
    (xs : List α) (complete : Bool) {o : Outline} (noted : o.entries = ix) :
    Takes (xs.foldlM (fun complete x => do let drawn ← f x; pure (complete && drawn)) complete) o
      (complete && (xs.mapM t).value.all (·.isSome))
      (o.draw ⟨[], (xs.mapM t).value.filterMap fun link => link⟩ (xs.mapM t).log) := by
  induction xs generalizing complete o with
  | nil =>
    change Takes (pure complete) o (complete && true) _
    rw [Bool.and_true]
    exact .idle complete o
  | cons x xs ih =>
    have rest := ih (complete && (t x).value.isSome) (o := o.draw ⟨[], (t x).value.toList⟩ (t x).log) noted
    rw [Outline.draw_draw, Subgraph.mk_append, Bool.and_assoc] at rest
    have links : ((x :: xs).mapM t).value.filterMap (fun link => link)
        = (t x).value.toList ++ (xs.mapM t).value.filterMap fun link => link := by
      cases found : (t x).value <;> simp [found]
    have log : ((x :: xs).mapM t).log = (t x).log ++ (xs.mapM t).log := by
      rw [List.mapM_cons]
      simp
    have value : ((x :: xs).mapM t).value.all (·.isSome)
        = ((t x).value.isSome && (xs.mapM t).value.all (·.isSome)) := by
      simp
    rw [List.foldlM_cons, links, log, value]
    exact ((each x noted).bind (.pure (complete && (t x).value.isSome) _)).bind rest

/-! ### Dependencies -/

/-- A step makes the links into what the given one does. -/
def Relinks (ix : RefIndex) (act : Assembler Unit) (t : List Link → Traced (List Link)) : Prop :=
  ∀ o, o.entries = ix → Takes act o () (o.relink (t o.links))

theorem Relinks.idle : Relinks ix (pure ()) pure := by
  intro o _
  have same : o.relink (pure o.links) = o := by simp [Outline.relink, Diagnostics.append_empty]
  rw [same]
  exact .pure () o

theorem Relinks.forM {f : α → Assembler Unit} {t : List Link → α → Traced (List Link)}
    (each : ∀ x, Relinks ix (f x) (t · x)) (xs : List α) : Relinks ix (xs.forM f) (xs.foldlM t) := by
  induction xs with
  | nil => exact .idle
  | cons x xs ih =>
    intro o noted
    have rest := ih (o.relink (t o.links x)) noted
    rw [Outline.relink_relink] at rest
    exact (each x o noted).bind rest

/-- A link for the one at hand, unless there is one like it. -/
theorem takes_addDependency (o : Outline) (source target : String) :
    Takes (do if (← get).hasEdge source target then pure () else addEdge (.plain source target)) o ()
      (o.relink (pure (addDependency o.links source target))) := by
  have read : Takes get o o.assembly o := rfl
  refine read.bind ?_
  rw [o.hasEdge_assembly, addDependency]
  split
  · exact Relinks.idle o rfl
  · have same : o.draw ⟨[], [.plain source target]⟩ .empty
        = o.relink (pure (o.links ++ [.plain source target])) := by
      simp [Outline.draw, Outline.relink]
    exact same ▸ takes_addEdge o (.plain source target)

theorem relinks_lowerDependency (target ref path : String) :
    Relinks ix (lowerDependency target ref path) (fun links => do
      match ← ix.resolve ref path with
      | some source => pure (addDependency links source target)
      | none => pure links) := by
  intro o noted
  have links : (o.draw .empty (ix.resolve ref path).log).links = o.links := List.append_nil _
  rw [Outline.relink_bind]
  refine (reports_resolve ref path o noted).bind ?_
  cases (ix.resolve ref path).value with
  | none =>
    have idle := Relinks.idle (o.draw .empty (ix.resolve ref path).log) rfl
    rwa [links] at idle
  | some source =>
    have added := takes_addDependency (o.draw .empty (ix.resolve ref path).log) source target
    rwa [links] at added

theorem relinks_lowerDependencies (a : Action) (i : Nat) :
    Relinks ix (lowerDependencies a i) (fun links => actionDependencies ix links a i) := by
  rintro o rfl
  have read : Takes get o o.assembly o := rfl
  refine read.bind ?_
  simp only [o.lookup?_assembly, actionDependencies]
  cases o.entries.lookup? a.localId with
  | none => exact Relinks.idle o rfl
  | some target =>
    exact Relinks.forM (fun x : String × Nat => relinks_lowerDependency target x.1
      (indexed (indexed "actions" i ++ ".depends_on") x.2)) _ o rfl

end

/-! ### The whole graph -/

theorem zipIdx_zip_map (id : α × Nat → β) (xs : List α) (n : Nat) :
    (xs.zip ((xs.zipIdx n).map id)).zipIdx n = (xs.zipIdx n).map fun x => ((x.1, id x), x.2) := by
  induction xs generalizing n with
  | nil => rfl
  | cons x xs ih => simp [List.zipIdx_cons, ih]

/-- Blocks are drawn under the ids that were reserved for them by their places. -/
theorem draws_zip {ix : RefIndex} (id : α × Nat → β) (f : α → β → Nat → Assembler Unit)
    {t : α × Nat → Traced Subgraph} (each : ∀ x, Draws ix (f x.1 (id x) x.2) (t x)) (xs : List α) :
    Draws ix ((xs.zip (xs.zipIdx.map id)).zipIdx.forM fun x => f x.1.1 x.1.2 x.2)
      (Subgraph.flatten <$> xs.zipIdx.mapM t) := by
  have same : ((xs.zip (xs.zipIdx.map id)).zipIdx.forM fun x => f x.1.1 x.1.2 x.2)
      = xs.zipIdx.forM fun x => f x.1 (id x) x.2 := by
    rw [zipIdx_zip_map]
    simp only [List.forM_eq_forM, List.forM_map]
  rw [same]
  exact .forM each _

/-- With all that the control flow of a workflow declares and draws. -/
theorem takes_lowerFlow (f : FlowControl) {o : Outline} {ix : RefIndex} (noted : o.entries ++ f.references = ix)
    (fresh : ∀ stem ∈ ["g", "par", "join", "loop"], o.counts stem = 0) :
    ∃ counts, Takes (lowerFlow f) o ((f.routeLinks ix).value.all (·.isSome))
      ({ o with entries := ix, counts := counts : Outline }.draw
        (Subgraph.flatten (f.blockGraphs ix).value ++ ⟨[], (f.routeLinks ix).value.filterMap fun link => link⟩)
        ((f.blockGraphs ix).log ++ (f.routeLinks ix).log)) := by
  obtain ⟨counts, reserved⟩ := takes_reserve f fresh
  rw [noted] at reserved
  have gateways : Draws ix _ _ := draws_zip (fun x => NodeType.gatewayIf.idAt x.2)
    (fun c id i => lowerCondition c id (indexed "flow_control.conditions" i))
    (fun x => draws_lowerCondition x.1 _ _) f.conditions
  have parallels : Draws ix _ _ := draws_zip (fun x => (NodeType.parallel.idAt x.2, NodeType.join.idAt x.2))
    (fun b ids i => lowerParallel b ids.1 ids.2 (indexed "flow_control.parallel_execution" i))
    (fun x => draws_lowerParallel x.1 _ _ _) f.parallels
  have loops : Draws ix _ _ := draws_zip (fun x => x.1.nodeType.idAt x.2)
    (fun l id i => lowerLoop l id (indexed "flow_control.loops" i))
    (fun x => draws_lowerLoop x.1 _ _) f.loops
  have all := gateways.takes (o := { o with entries := ix, counts := counts }) rfl fun o noted =>
    parallels.takes noted fun o noted => loops.takes noted fun o noted =>
      takes_foldlM_and (fun x {o} => takes_lowerRoute x.1 (indexed "flow_control.routes" x.2)) f.routes.zipIdx
        true noted
  simp only [Traced.value_map, Traced.log_map, Bool.true_and] at all
  refine ⟨counts, reserved.bind ?_⟩
  simp only [FlowControl.blockGraphs, FlowControl.routeLinks, Traced.value_bind, Traced.log_bind,
    Traced.value_pure, Traced.log_pure, Diagnostics.append_empty, Diagnostics.append_assoc,
    Subgraph.flatten_append, Subgraph.append_assoc]
  exact all

section
variable (catalog : Option CatalogIndex) (w : Workflow) {o : Outline}

theorem takes_triggers (fresh : o.counts "t" = 0) :
    Takes (w.triggers.forM (lowerTrigger catalog)) o ()
      (o.declare (w.runnableTriggers.zipIdx.map fun x => ⟨.trigger, x.1.1.localId, NodeType.trigger.idAt x.2⟩)
        (w.runnableTriggers.zipIdx.map fun x => triggerNode catalog x.1.1 x.1.2 x.2) ["t"]
        w.runnableTriggers.length) := by
  have places (t : Trigger) : lowerTrigger catalog t = (t.exec.map fun exec => (t, exec)).elim (pure ())
      fun x => place .trigger .trigger x.1.localId fun id => { triggerNode catalog x.1 x.2 0 with id := id } := by
    unfold lowerTrigger
    cases t.exec <;> rfl
  exact takes_forM_place .trigger .trigger _ _ places w.triggers fresh

theorem takes_actions (fresh : o.counts "a" = 0) :
    Takes (w.actions.forM (lowerAction catalog)) o ()
      (o.declare (w.runnableActions.zipIdx.map fun x => ⟨.action, x.1.1.localId, NodeType.action.idAt x.2⟩)
        (w.runnableActions.zipIdx.map fun x => actionNode catalog x.1.1 x.1.2 x.2) ["a"]
        w.runnableActions.length) := by
  have places (a : Action) : lowerAction catalog a = (a.exec.map fun exec => (a, exec)).elim (pure ())
      fun x => place .action .action x.1.localId fun id => { actionNode catalog x.1 x.2 0 with id := id } := by
    unfold lowerAction
    cases a.exec <;> rfl
  exact takes_forM_place .action .action _ _ places w.actions fresh

/-- A workflow without control flow declares and draws nothing more. -/
theorem takes_flowControl (noted : o.entries ++ (w.flowControl.getD .empty).references = w.references)
    (fresh : ∀ stem ∈ ["g", "par", "join", "loop"], o.counts stem = 0) :
    ∃ counts, Takes (lowerFlow? w.flowControl) o
      (((w.flowControl.getD .empty).routeLinks w.references).value.all (·.isSome))
      ({ o with entries := w.references, counts := counts : Outline }.draw
        (Subgraph.flatten ((w.flowControl.getD .empty).blockGraphs w.references).value
          ++ ⟨[], ((w.flowControl.getD .empty).routeLinks w.references).value.filterMap fun link => link⟩)
        (((w.flowControl.getD .empty).blockGraphs w.references).log
          ++ ((w.flowControl.getD .empty).routeLinks w.references).log)) := by
  cases given : w.flowControl with
  | none =>
    rw [given] at noted
    exact takes_lowerFlow .empty noted fresh
  | some f =>
    rw [given] at noted
    exact takes_lowerFlow f noted fresh

theorem takes_dependencies (noted : o.entries = w.references) :
    Takes (w.actions.zipIdx.forM fun x => lowerDependencies x.1 x.2) o ()
      (o.relink (dependencies w.references o.links w.actions)) :=
  Relinks.forM (fun x : Action × Nat => relinks_lowerDependencies x.1 x.2) w.actions.zipIdx o noted

/-- A workflow comes out as its entities, its references and its drawing say. -/
theorem takes_lowerWorkflow :
    ∃ counts, Takes (lowerWorkflow catalog w) ⟨[], [], fun _ => 0, [], .empty⟩
      (w.draw.value.routes.all (·.isSome))
      ⟨w.entityNodes catalog ++ w.draw.value.blocks.flatMap (·.nodes), w.references, counts,
        w.draw.value.links, w.draw.log⟩ := by
  have triggers := takes_triggers catalog w (o := ⟨[], [], fun _ => 0, [], .empty⟩) rfl
  generalize declared : Outline.declare _ _ _ _ _ = o at triggers
  have actions := takes_actions catalog w (o := o) (by simp [← declared, Outline.declare])
  generalize declared' : Outline.declare _ _ _ _ _ = o' at actions
  obtain ⟨counts, flow⟩ := takes_flowControl w (o := o')
    (by simp [← declared', ← declared, Outline.declare, Workflow.references])
    (by simp [← declared', ← declared, Outline.declare])
  refine ⟨counts, triggers.bind (actions.bind (flow.bind ((takes_dependencies w rfl).bind (.done _ ?_))))⟩
  simp [← declared', ← declared, Outline.draw, Outline.declare, Outline.relink, Subgraph.flatten,
    Subgraph.mk_append, Workflow.draw, Workflow.entityNodes, Diagnostics.empty_append, Diagnostics.append_assoc]

end

end Assembler

section
variable (w : Workflow) (catalog : Option CatalogIndex)

theorem Workflow.assembled_eq :
    ∃ counts, w.assembled catalog = (w.draw.value.routes.all (·.isSome),
      Outline.assembly ⟨w.entityNodes catalog ++ w.draw.value.blocks.flatMap (·.nodes), w.references, counts,
        w.draw.value.links, w.draw.log⟩) :=
  Assembler.takes_lowerWorkflow catalog w

theorem Workflow.edges_assembled : (w.assembled catalog).2.edges = numberLinks w.draw.value.links := by
  obtain ⟨counts, same⟩ := w.assembled_eq catalog
  rw [same]
  rfl

theorem Workflow.lookup?_assembled : (w.assembled catalog).2.lookup? = w.references.lookup? := by
  obtain ⟨counts, same⟩ := w.assembled_eq catalog
  rw [same]
  rfl

end

/-- The graph that is said at once is the one that is put together step by step, and so is what there is to
    report. -/
theorem Lowerer.graph_eq_assembled (l : Lowerer) (w : Workflow) :
    (l.graph w).value = (if (w.assembled l.catalog).1 then
        some (l.layout.place (w.assembled l.catalog).2.nodes, (w.assembled l.catalog).2.edges)
      else none) ∧
    (l.graph w).log = (w.assembled l.catalog).2.log := by
  obtain ⟨counts, same⟩ := w.assembled_eq l.catalog
  rw [same, graph, Traced.value_bind, Traced.log_bind]
  cases w.draw.value.routes.all (·.isSome) with
  | false => exact ⟨rfl, Diagnostics.append_empty _⟩
  | true => exact ⟨rfl, Diagnostics.append_empty _⟩

end Flowgraph
