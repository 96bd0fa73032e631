import Flowgraph.Proofs.Integrity
import Mathlib.Data.List.Forall2
import Mathlib.Logic.Relation

/-! What the check of a graph warns about. The search behind it is right on every graph, also where edges
    run in circles or are given more than once: the edges out of a node are used up at its first visit, and
    a path to the goal can be cut after its last visit to that node. So there is one warning for every
    node without an edge and then one for every branch that does not lead to its join, and none of them
    decides whether the graph is handed out. -/

namespace Flowgraph

/-! ### Paths -/

/-- An edge leads from one node to the other. -/
def Follows (edges : List Edge) (a b : String) : Prop := ∃ e ∈ edges, e.source = a ∧ e.target = b

/-- A path of any number of edges leads from one node to the other. -/
def Leads (edges : List Edge) : String → String → Prop := Relation.ReflTransGen (Follows edges)

theorem mem_edgesBeside {edges : List Edge} {id : String} {e : Edge} :
    e ∈ edgesBeside edges id ↔ e ∈ edges ∧ e.source ≠ id := by
  simp [edgesBeside]

theorem mem_targets {edges : List Edge} {id b : String} :
    b ∈ (edgesFrom edges id).map (·.target) ↔ Follows edges id b := by
  simp [edgesFrom, Follows, and_assoc]

theorem not_follows_edgesBeside (edges : List Edge) (id b : String) :
    ¬ Follows (edgesBeside edges id) id b := by
  rintro ⟨e, he, source, -⟩
  exact (mem_edgesBeside.mp he).2 source

theorem Leads.of_edgesBeside {edges : List Edge} {id a b : String}
    (path : Leads (edgesBeside edges id) a b) : Leads edges a b := by
  refine Relation.ReflTransGen.mono ?_ _ _ path
  rintro x y ⟨e, he, ends⟩
  exact ⟨e, (mem_edgesBeside.mp he).1, ends⟩

/-- A path either has no edge out of a node or can be cut behind the last one. -/
theorem Leads.avoids {edges : List Edge} {a goal : String} (path : Leads edges a goal) (id : String) :
    Leads (edgesBeside edges id) a goal ∨
      ∃ b, Follows edges id b ∧ Leads (edgesBeside edges id) b goal := by
  induction path using Relation.ReflTransGen.head_induction_on with
  | refl => exact .inl .refl
  | head first _ ih =>
    rcases ih with rest | later
    · obtain ⟨e, he, rfl, rfl⟩ := first
      by_cases out : e.source = id
      · exact .inr ⟨_, ⟨e, he, out, rfl⟩, rest⟩
      · exact .inl (.head ⟨e, mem_edgesBeside.mpr ⟨he, out⟩, rfl, rfl⟩ rest)
    · exact .inr later

/-- A path to another node starts with an edge out of its own that it does not need again. -/
theorem Leads.leaves {edges : List Edge} {id goal : String} (path : Leads edges id goal)
    (elsewhere : id ≠ goal) : ∃ b, Follows edges id b ∧ Leads (edgesBeside edges id) b goal := by
  rcases path.avoids id with beside | later
  · rcases Relation.ReflTransGen.cases_head beside with same | ⟨b, first, -⟩
    · exact absurd same elsewhere
    · exact absurd first (not_follows_edgesBeside edges id b)
  · exact later

/-! ### The search -/

/-- The search says yes just if there is a path from one of the waiting nodes. -/
theorem leadsTo_iff (goal : String) (edges : List Edge) (waiting : List String) :
    leadsTo goal edges waiting = true ↔ ∃ a ∈ waiting, Leads edges a goal := by
  induction edges, waiting using leadsTo.induct goal with
  | case1 edges => simp [leadsTo]
  | case2 edges waiting =>
    rw [leadsTo, if_pos rfl]
    exact ⟨fun _ => ⟨goal, List.mem_cons_self, .refl⟩, fun _ => rfl⟩
  | case3 edges id waiting elsewhere ih =>
    rw [leadsTo, if_neg elsewhere, ih]
    constructor
    · rintro ⟨a, ha, path⟩
      rcases List.mem_append.mp ha with next | old
      · exact ⟨id, List.mem_cons_self, .head (mem_targets.mp next) path.of_edgesBeside⟩
      · exact ⟨a, List.mem_cons_of_mem id old, path.of_edgesBeside⟩
    · rintro ⟨a, ha, path⟩
      have next : (∃ b, Follows edges id b ∧ Leads (edgesBeside edges id) b goal) →
          ∃ a ∈ (edgesFrom edges id).map (·.target) ++ waiting, Leads (edgesBeside edges id) a goal := by
        rintro ⟨b, follows, rest⟩
        exact ⟨b, List.mem_append_left _ (mem_targets.mpr follows), rest⟩
      rcases List.mem_cons.mp ha with rfl | old
      · exact next (path.leaves elsewhere)
      · rcases path.avoids id with beside | later
        · exact ⟨a, List.mem_append_right _ old, beside⟩
        · exact next later

theorem reaches_iff {edges : List Edge} {start goal : String} :
    reaches edges start goal = true ↔ Leads edges start goal := by
  simp [reaches, leadsTo_iff]

/-- The search does not depend on the order in which nodes wait. -/
theorem leadsTo_congr {goal : String} {edges : List Edge} {waiting waiting' : List String}
    (same : ∀ a, a ∈ waiting ↔ a ∈ waiting') :
    leadsTo goal edges waiting = leadsTo goal edges waiting' := by
  rw [Bool.eq_iff_iff, leadsTo_iff, leadsTo_iff]
  simp only [same]

/-! ### The search with a stack

The same search with all edges at hand: nodes are taken from a stack and noted as seen when they are taken,
so a node can be on the stack many times. -/

/-- A search under way: the nodes that have been seen and the ones to go on from. -/
structure Search where
  seen : List String
  stack : List String

namespace Search

/-- One turn of a search: its answer, or the search after the topmost node. -/
def turn (edges : List Edge) (goal : String) : Search → Bool ⊕ Search
  | ⟨_, []⟩ => .inl false
  | ⟨seen, id :: stack⟩ =>
    if id = goal then .inl true
    else if id ∈ seen then .inr ⟨seen, stack⟩
    else .inr ⟨id :: seen, ((edgesFrom edges id).map (·.target)).reverse ++ stack⟩

/-- The answer of a search, if it has one after some turns. -/
def run (edges : List Edge) (goal : String) : Nat → Search → Option Bool
  | 0, _ => none
  | turns + 1, s => match s.turn edges goal with
    | .inl answer => some answer
    | .inr next => run edges goal turns next

/-- The edges that a search has not used yet. -/
def unused (edges : List Edge) (s : Search) : List Edge := edges.filter (·.source ∉ s.seen)

/-- What a search has left to do: every unused edge and every node on its stack is looked at once. -/
def work (edges : List Edge) (s : Search) : Nat := (s.unused edges).length + s.stack.length

theorem edgesBeside_unused (edges : List Edge) (seen stack stack' : List String) (id : String) :
    edgesBeside (unused edges ⟨seen, stack⟩) id = unused edges ⟨id :: seen, stack'⟩ := by
  simp [edgesBeside, unused, List.filter_filter]

theorem edgesFrom_unused {edges : List Edge} {seen stack : List String} {id : String}
    (new : id ∉ seen) : edgesFrom (unused edges ⟨seen, stack⟩) id = edgesFrom edges id := by
  simp only [edgesFrom, unused, List.filter_filter]
  refine List.filter_congr fun e _ => ?_
  by_cases out : e.source = id
  · simp [out, new]
  · simp [out]

theorem edgesFrom_unused_of_mem {edges : List Edge} {seen stack : List String} {id : String}
    (old : id ∈ seen) : edgesFrom (unused edges ⟨seen, stack⟩) id = [] := by
  simp only [edgesFrom, unused, List.filter_filter, List.filter_eq_nil_iff]
  intro e _
  by_cases out : e.source = id
  · simp [out, old]
  · simp [out]

theorem edgesBeside_unused_of_mem {edges : List Edge} {seen stack stack' : List String} {id : String}
    (old : id ∈ seen) : edgesBeside (unused edges ⟨seen, stack⟩) id = unused edges ⟨seen, stack'⟩ := by
  simp only [edgesBeside, unused, List.filter_filter]
  refine List.filter_congr fun e _ => ?_
  by_cases out : e.source = id
  · simp [out, old]
  · simp [out]

/-- A turn that ends a search answers as the search for a path does on what is left. -/
theorem leadsTo_of_turn_inl {edges : List Edge} {goal : String} {s : Search} {answer : Bool}
    (turned : s.turn edges goal = .inl answer) : leadsTo goal (s.unused edges) s.stack = answer := by
  obtain ⟨seen, stack⟩ := s
  cases stack with
  | nil =>
    rw [leadsTo]
    exact Sum.inl.inj turned
  | cons id stack =>
    simp only [turn] at turned
    rw [leadsTo]
    split at turned
    · rw [if_pos ‹_›]
      exact Sum.inl.inj turned
    · split at turned <;> cases turned

/-- A turn that goes on leaves less work and the answer as it was. -/
theorem leadsTo_of_turn_inr {edges : List Edge} {goal : String} {s next : Search}
    (turned : s.turn edges goal = .inr next) :
    next.work edges + 1 = s.work edges ∧
      leadsTo goal (next.unused edges) next.stack = leadsTo goal (s.unused edges) s.stack := by
  obtain ⟨seen, stack⟩ := s
  cases stack with
  | nil => cases turned
  | cons id stack =>
    have parts := edgesBeside_length (unused edges ⟨seen, id :: stack⟩) id
    simp only [turn] at turned
    split_ifs at turned with found old
    · cases Sum.inr.inj turned
      have used : edgesFrom (unused edges ⟨seen, id :: stack⟩) id = [] := edgesFrom_unused_of_mem old
      have kept : edgesBeside (unused edges ⟨seen, id :: stack⟩) id = unused edges ⟨seen, stack⟩ :=
        edgesBeside_unused_of_mem old
      constructor
      · simp only [work, unused, List.length_cons]
        omega
      · rw [leadsTo.eq_2, if_neg found, used, kept]
        rfl
    · cases Sum.inr.inj turned
      rw [edgesFrom_unused old, edgesBeside_unused edges seen (id :: stack)
        (((edgesFrom edges id).map (·.target)).reverse ++ stack)] at parts
      constructor
      · simp only [work, List.length_append, List.length_reverse, List.length_map, List.length_cons]
        omega
      · rw [leadsTo.eq_2 goal _ id stack, if_neg found, edgesFrom_unused old, edgesBeside_unused]
        exact leadsTo_congr fun a => by simp

/-- A search with more turns than work ends, with the answer of the search for a path on what is left. -/
theorem run_eq {edges : List Edge} {goal : String} {turns : Nat} {s : Search}
    (enough : s.work edges < turns) :
    s.run edges goal turns = some (leadsTo goal (s.unused edges) s.stack) := by
  induction turns generalizing s with
  | zero => omega
  | succ turns ih =>
    rw [run]
    cases turned : s.turn edges goal with
    | inl answer => rw [leadsTo_of_turn_inl turned]
    | inr next =>
      obtain ⟨less, same⟩ := leadsTo_of_turn_inr turned
      have rest := ih (s := next) (by omega)
      rw [← same]
      exact rest

/-- A search from one node looks at each edge at most once. -/
theorem run_start (edges : List Edge) (start goal : String) :
    run edges goal (edges.length + 2) ⟨[], [start]⟩ = some (reaches edges start goal) := by
  have all : unused edges ⟨[], [start]⟩ = edges := by simp [unused]
  rw [run_eq, all, reaches]
  simp [work, all]

end Search

/-! ### Lists in the order of their keys -/

/-- The list has one entry for every key with an entry, in the order of the keys. -/
def Enumerates (before : κ → κ → Prop) (entry : κ → α → Prop) (xs : List α) : Prop :=
  ∃ keys : List κ, keys.Pairwise before ∧ (∀ k, k ∈ keys ↔ ∃ x, entry k x) ∧ List.Forall₂ entry keys xs

namespace Enumerates

variable {before : κ → κ → Prop} {entry entry' : κ → α → Prop} {xs ys : List α}

theorem congr (same : ∀ k x, entry k x ↔ entry' k x) (h : Enumerates before entry xs) :
    Enumerates before entry' xs := by
  obtain ⟨keys, ordered, exactly, listed⟩ := h
  refine ⟨keys, ordered, fun k => ?_, listed.imp fun k x => (same k x).mp⟩
  rw [exactly k]
  exact exists_congr (same k)

theorem nil (none : ∀ k x, ¬ entry k x) : Enumerates before entry [] :=
  ⟨[], .nil, fun k => by simp [none], .nil⟩

theorem single (key : κ) (value : α) :
    Enumerates before (fun k x => k = key ∧ x = value) [value] :=
  ⟨[key], List.pairwise_singleton .., fun k => by simp, .cons ⟨rfl, rfl⟩ .nil⟩

theorem guard (c : Prop) [Decidable c] (h : Enumerates before entry xs) :
    Enumerates before (fun k x => ¬ c ∧ entry k x) (if c then [] else xs) := by
  by_cases hc : c
  · rw [if_pos hc]
    exact nil fun k x he => he.1 hc
  · rw [if_neg hc]
    exact h.congr fun k x => by simp [hc]

theorem append (apart : ∀ k k' x x', entry k x → entry' k' x' → before k k')
    (hx : Enumerates before entry xs) (hy : Enumerates before entry' ys) :
    Enumerates before (fun k x => entry k x ∨ entry' k x) (xs ++ ys) := by
  obtain ⟨keys, ordered, exactly, listed⟩ := hx
  obtain ⟨keys', ordered', exactly', listed'⟩ := hy
  refine ⟨keys ++ keys', List.pairwise_append.mpr ⟨ordered, ordered', ?_⟩, fun k => ?_, ?_⟩
  · intro k hk k' hk'
    obtain ⟨x, hx⟩ := (exactly k).mp hk
    obtain ⟨x', hx'⟩ := (exactly' k').mp hk'
    exact apart k k' x x' hx hx'
  · rw [List.mem_append, exactly, exactly', exists_or]
  · exact List.rel_append (listed.imp fun _ _ => .inl) (listed'.imp fun _ _ => .inr)

/-- There is only one such list, if keys have one order and one entry each. -/
theorem unique (asymm : ∀ k k', before k k' → ¬ before k' k)
    (functional : ∀ k x x', entry k x → entry k x' → x = x')
    (hx : Enumerates before entry xs) (hy : Enumerates before entry ys) : xs = ys := by
  obtain ⟨keys, ordered, exactly, listed⟩ := hx
  obtain ⟨keys', ordered', exactly', listed'⟩ := hy
  have distinct : ∀ {ks : List κ}, ks.Pairwise before → ks.Nodup := by
    intro ks h
    refine h.imp fun {k k'} less same => ?_
    subst same
    exact asymm k k less less
  have perm : keys.Perm keys' :=
    (List.perm_ext_iff_of_nodup (distinct ordered) (distinct ordered')).mpr fun k =>
      (exactly k).trans (exactly' k).symm
  have same : keys = keys' :=
    perm.eq_of_pairwise (fun k k' _ _ less more => absurd more (asymm k k' less)) ordered ordered'
  subst same
  exact List.right_unique_forall₂' (fun k x x' => functional k x x') listed listed'

/-- What the elements of a list contribute, where what comes of an earlier one goes before what comes of a
    later one. -/
theorem flatMap_zipIdx {r : κ → κ → Prop} {P : α → Nat → κ → β → Prop} {f : α × Nat → List β}
    (each : ∀ a i, Enumerates r (P a i) (f (a, i)))
    (apart : ∀ a i b j, i < j → ∀ k k' x x', P a i k x → P b j k' x' → r k k')
    (xs : List α) (n : Nat) :
    Enumerates r (fun k x => ∃ a i, (a, i) ∈ xs.zipIdx n ∧ P a i k x)
      ((xs.zipIdx n).flatMap f) := by
  induction xs generalizing n with
  | nil => exact nil fun k x => by simp
  | cons a xs ih =>
    rw [List.zipIdx_cons, List.flatMap_cons]
    refine congr (fun k x => ?_) (append ?_ (each a n) (ih (n + 1)))
    · simp [or_and_right, exists_or]
    · rintro k k' x x' here ⟨b, j, hb, there⟩
      exact apart a n b j (List.le_snd_of_mem_zipIdx hb) k k' x x' here there

end Enumerates

/-- To go over a list without repetitions is to pass over what stands further in front. -/
theorem flatMap_eraseDups [DecidableEq α] (g : α → List β) (xs : List α) :
    xs.eraseDups.flatMap g = xs.zipIdx.flatMap fun x => if x.1 ∈ xs.take x.2 then [] else g x.1 := by
  induction xs using List.reverseRecOn with
  | nil => simp
  | append_singleton xs x ih =>
    have front : xs.zipIdx.flatMap (fun y => if y.1 ∈ (xs ++ [x]).take y.2 then [] else g y.1)
        = xs.zipIdx.flatMap fun y => if y.1 ∈ xs.take y.2 then [] else g y.1 := by
      refine List.flatMap_congr fun y hy => ?_
      rw [List.take_append_of_le_length (Nat.le_of_lt (List.snd_lt_of_mem_zipIdx hy))]
    rw [List.eraseDups_append, List.flatMap_append, ih, List.zipIdx_append, List.flatMap_append, front]
    by_cases old : x ∈ xs
    · simp [List.removeAll, old]
    · simp [List.removeAll, old, List.eraseDups_cons]

/-! ### Warnings -/

/-- A place that the check warns about: a node without an edge, or a branch of a parallel node. -/
inductive Flaw where
  | orphan (node : Nat)
  | unjoined (node branch : Nat)

/-- Nodes without an edge go first, and then branches by their nodes. -/
def Flaw.Before : Flaw → Flaw → Prop
  | .orphan i, .orphan i' => i < i'
  | .orphan _, .unjoined .. => True
  | .unjoined .., .orphan _ => False
  | .unjoined i j, .unjoined i' j' => i < i' ∨ i = i' ∧ j < j'

theorem Flaw.Before.asymm {k k' : Flaw} (h : k.Before k') : ¬ k'.Before k := by
  cases k <;> cases k' <;> simp_all only [Flaw.Before, not_false_eq_true] <;> omega

namespace Dag

/-- The warning about a node without an edge. -/
def orphanWarning (n : Node) (i : Nat) : Diagnostic :=
  ⟨.orphanNode, indexed "nodes" i, "Node '" ++ n.id ++ "' (" ++ n.label ++ ") has no edges", none⟩

/-- The warning about a branch that does not lead to its join. -/
def unjoinedWarning (n : Node) (i : Nat) (p : ParallelNode) (b : String) : Diagnostic :=
  ⟨.parallelBranchUnjoined, indexed "nodes" i,
    "Branch '" ++ b ++ "' of '" ++ n.id ++ "' never reaches join '" ++ p.join ++ "'",
    some "Route the end of the branch to the join"⟩

/-- The graph has a flaw, and this is the warning about it. Of the branches to one node only the first
    counts. -/
def Warns (d : Dag) : Flaw → Diagnostic → Prop
  | .orphan i, warning => ∃ n, d.nodes[i]? = some n ∧
      (∀ e ∈ d.edges, e.source ≠ n.id ∧ e.target ≠ n.id) ∧ warning = orphanWarning n i
  | .unjoined i j, warning => ∃ n p b, d.nodes[i]? = some n ∧ n.data = .parallel p ∧
      p.branches[j]? = some b ∧ b ∉ p.branches.take j ∧ ¬ Leads d.edges b p.join ∧
      warning = unjoinedWarning n i p b

theorem enumerates_orphanWarnings (d : Dag) :
    Enumerates Flaw.Before (fun k x => ∃ i, k = .orphan i ∧ d.Warns k x) d.orphanWarnings := by
  let touched := d.edges.flatMap fun e => [e.source, e.target]
  have free : ∀ n : Node, ¬ touched.contains n.id = true ↔
      ∀ e ∈ d.edges, e.source ≠ n.id ∧ e.target ≠ n.id := by
    intro n
    simp [touched, eq_comm]
  have listed := Enumerates.flatMap_zipIdx (r := Flaw.Before)
    (P := fun n i k x => ¬ touched.contains n.id = true ∧ k = .orphan i ∧ x = orphanWarning n i)
    (f := fun x => if touched.contains x.1.id then [] else [orphanWarning x.1 x.2])
    (fun n i => (Enumerates.single (Flaw.orphan i) (orphanWarning n i)).guard _)
    (by rintro n i m j less _ _ _ _ ⟨-, rfl, -⟩ ⟨-, rfl, -⟩; exact less) d.nodes 0
  refine listed.congr fun k x => ?_
  simp only [List.mk_mem_zipIdx_iff_getElem?, free]
  constructor
  · rintro ⟨n, i, hi, untouched, rfl, rfl⟩
    exact ⟨i, rfl, n, hi, untouched, rfl⟩
  · rintro ⟨i, rfl, n, hi, untouched, rfl⟩
    exact ⟨n, i, hi, untouched, rfl, rfl⟩

/-- The warnings about the branches of one parallel node. -/
theorem enumerates_branches (edges : List Edge) (n : Node) (i : Nat) (p : ParallelNode) :
    Enumerates Flaw.Before
      (fun k x => ∃ b j, p.branches[j]? = some b ∧ b ∉ p.branches.take j ∧ ¬ Leads edges b p.join ∧
        k = .unjoined i j ∧ x = unjoinedWarning n i p b)
      ((p.branches.eraseDups.filter fun b => !reaches edges b p.join).map (unjoinedWarning n i p)) := by
  have each : (p.branches.eraseDups.filter fun b => !reaches edges b p.join).map (unjoinedWarning n i p)
      = p.branches.eraseDups.flatMap fun b =>
        if reaches edges b p.join then [] else [unjoinedWarning n i p b] := by
    induction p.branches.eraseDups with
    | nil => rfl
    | cons b bs ih => by_cases joined : reaches edges b p.join <;> simp [joined, ih]
  rw [each, flatMap_eraseDups]
  have listed := Enumerates.flatMap_zipIdx (r := Flaw.Before)
    (P := fun b j k x => b ∉ p.branches.take j ∧ ¬ reaches edges b p.join = true ∧
      k = .unjoined i j ∧ x = unjoinedWarning n i p b)
    (f := fun x => if x.1 ∈ p.branches.take x.2 then [] else
      if reaches edges x.1 p.join then [] else [unjoinedWarning n i p x.1])
    (fun b j => ((Enumerates.single (Flaw.unjoined i j) (unjoinedWarning n i p b)).guard _).guard _)
    (by rintro b j c j' less _ _ _ _ ⟨-, -, rfl, -⟩ ⟨-, -, rfl, -⟩; exact .inr ⟨rfl, less⟩) p.branches 0
  refine listed.congr fun k x => ?_
  simp only [List.mk_mem_zipIdx_iff_getElem?, reaches_iff]

/-- What is found at the branches of one node. -/
def branchWarnings (edges : List Edge) (n : Node) (i : Nat) : List Diagnostic := match n.data with
  | .parallel p =>
    (p.branches.eraseDups.filter fun b => !reaches edges b p.join).map (unjoinedWarning n i p)
  | _ => []

theorem enumerates_branchWarnings (edges : List Edge) (n : Node) (i : Nat) :
    Enumerates Flaw.Before
      (fun k x => ∃ p, n.data = .parallel p ∧ ∃ b j, p.branches[j]? = some b ∧
        b ∉ p.branches.take j ∧ ¬ Leads edges b p.join ∧ k = .unjoined i j ∧
        x = unjoinedWarning n i p b)
      (branchWarnings edges n i) := by
  unfold branchWarnings
  split
  · rename_i p parallel
    exact (enumerates_branches edges n i p).congr fun k x => by simp [parallel]
  · rename_i other
    exact .nil fun k x => by rintro ⟨p, parallel, -⟩; exact other p parallel

theorem enumerates_unjoinedWarnings (d : Dag) :
    Enumerates Flaw.Before (fun k x => ∃ i j, k = .unjoined i j ∧ d.Warns k x) d.unjoinedWarnings := by
  have listed := Enumerates.flatMap_zipIdx (f := fun x => branchWarnings d.edges x.1 x.2)
    (enumerates_branchWarnings d.edges) ?_ d.nodes 0
  · refine listed.congr fun k x => ?_
    simp only [List.mk_mem_zipIdx_iff_getElem?]
    constructor
    · rintro ⟨n, i, hi, p, parallel, b, j, hj, first, unjoined, rfl, rfl⟩
      exact ⟨i, j, rfl, n, p, b, hi, parallel, hj, first, unjoined, rfl⟩
    · rintro ⟨i, j, rfl, n, p, b, hi, parallel, hj, first, unjoined, rfl⟩
      exact ⟨n, i, hi, p, parallel, b, j, hj, first, unjoined, rfl, rfl⟩
  · rintro n i m i' less _ _ _ _ ⟨-, -, -, -, -, -, -, rfl, -⟩ ⟨-, -, -, -, -, -, -, rfl, -⟩
    exact .inl less

theorem enumerates_warnings (d : Dag) : Enumerates Flaw.Before d.Warns d.check.warnings := by
  have listed := d.enumerates_orphanWarnings.append ?_ d.enumerates_unjoinedWarnings
  · refine listed.congr fun k x => ?_
    cases k <;> simp
  · rintro _ _ _ _ ⟨i, rfl, -⟩ ⟨i', j, rfl, -⟩
    exact trivial

theorem eq_of_warns {d : Dag} {k : Flaw} {x y : Diagnostic} (hx : d.Warns k x) (hy : d.Warns k y) :
    x = y := by
  cases k with
  | orphan i =>
    obtain ⟨n, hi, -, rfl⟩ := hx
    obtain ⟨n', hi', -, rfl⟩ := hy
    cases hi.symm.trans hi'
    rfl
  | unjoined i j =>
    obtain ⟨n, p, b, hi, parallel, hj, -, -, rfl⟩ := hx
    obtain ⟨n', p', b', hi', parallel', hj', -, -, rfl⟩ := hy
    cases hi.symm.trans hi'
    cases parallel.symm.trans parallel'
    cases hj.symm.trans hj'
    rfl

theorem warnings_eq_iff {d : Dag} {ws : List Diagnostic} :
    d.check.warnings = ws ↔ Enumerates Flaw.Before d.Warns ws := by
  constructor
  · rintro rfl
    exact d.enumerates_warnings
  · exact d.enumerates_warnings.unique (fun _ _ => Flaw.Before.asymm) fun _ _ _ => eq_of_warns

end Dag

/-- The search for the join of a branch ends and is right on every graph. The report on a graph gets exactly
    one warning for every flaw, in order; whether the graph is handed out depends on its ids and edges
    only. -/
theorem Lowerer.finish_warns (log : Diagnostics) (d : Dag) :
    (∀ start goal,
      Search.run d.edges goal (d.edges.length + 2) ⟨[], [start]⟩ = some (reaches d.edges start goal) ∧
      (reaches d.edges start goal = true ↔ Leads d.edges start goal)) ∧
    (∀ warnings, (finish log d).diagnostics.warnings = log.warnings ++ warnings ↔
      Enumerates Flaw.Before d.Warns warnings) ∧
    ((finish log d).document = some d ↔ d.Sound) ∧ ((finish log d).document = none ↔ ¬ d.Sound) := by
  refine ⟨fun start goal => ⟨Search.run_start .., reaches_iff⟩, fun warnings => ?_, ?_⟩
  · rw [← Dag.warnings_eq_iff]
    exact List.append_right_inj log.warnings
  · rw [← Dag.errors_eq_nil_iff, finish]
    by_cases clean : d.errors = [] <;> simp [clean]

end Flowgraph
