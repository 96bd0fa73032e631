import Flowgraph.Proofs.Integrity
import Mathlib.Data.Set.Function

/-! Renamed nodes. To give other names to the nodes that references stand for and then to draw a block is the
    same as to draw it and then to give the names; and the edges of dependencies come out the same as long
    as no two nodes get one name. -/

namespace Flowgraph

open Json

/-- The payload with other names for the nodes in it. -/
def NodeData.rename (f : String → String) : NodeData → NodeData
  | .trigger n => .trigger n
  | .action n => .action n
  | .gatewayIf n => .gatewayIf
    ⟨n.branches.map fun b => { b with target := b.target.map f }, n.elseTarget.map f⟩
  | .parallel n => .parallel ⟨n.branches.map f, f n.join⟩
  | .join n => .join { n with parallel := f n.parallel }
  | .loopWhile n => .loopWhile { n with bodyStart := n.bodyStart.map f }
  | .loopForeach n => .loopForeach { n with bodyStart := n.bodyStart.map f }

/-- The node with other names for itself and for the nodes in its payload. -/
def Node.rename (f : String → String) (n : Node) : Node :=
  { n with id := f n.id, data := n.data.rename f }

/-- The link between the same nodes under other names. -/
def Link.rename (f : String → String) (l : Link) : Link :=
  { l with source := f l.source, target := f l.target }

/-- References to the same nodes under other names. -/
def Resolver.rename (f : String → String) (rho : Resolver) : Resolver := fun ref => (rho ref).map f

/-! ### Blocks -/

section
variable (f : String → String) (rho : Resolver)

@[simp] theorem Resolver.bind_rename (ref : Option String) :
    ref.bind (rho.rename f) = (ref.bind rho).map f := by
  cases ref <;> rfl

@[simp] theorem Resolver.filterMap_rename (refs : List String) :
    refs.filterMap (rho.rename f) = (refs.filterMap rho).map f := by
  rw [List.map_filterMap]
  rfl

theorem linksInto_rename (incoming : Option String) (id : String) :
    linksInto (rho.rename f) incoming (f id) = (linksInto rho incoming id).map (Link.rename f) := by
  rw [linksInto, linksInto, Resolver.bind_rename]
  cases incoming.bind rho <;> rfl

theorem Conditional.links_rename (id : String) (c : Conditional) :
    c.links (rho.rename f) (f id) = (c.links rho id).map (Link.rename f) := by
  have branch (b : ConditionBranch × Nat) :
      ((rho.rename f b.1.toRef).toList.map fun target =>
          (⟨f id, target, "success", some b.1.expr, some (b.1.title b.2)⟩ : Link))
        = ((rho b.1.toRef).toList.map fun target =>
          (⟨id, target, "success", some b.1.expr, some (b.1.title b.2)⟩ : Link)).map
            (Link.rename f) := by
    rw [Resolver.rename]
    cases rho b.1.toRef <;> rfl
  rw [links, links, linksInto_rename, Resolver.bind_rename, List.map_append, List.map_append,
    List.map_flatMap]
  simp only [branch]
  cases c.elseRef.bind rho <;> rfl

theorem ParallelBlock.links_rename (id join : String) (b : ParallelBlock) :
    b.links (rho.rename f) (f id) (f join) = (b.links rho id join).map (Link.rename f) := by
  rw [links, links, linksInto_rename, Resolver.bind_rename, Resolver.filterMap_rename,
    List.map_append, List.map_append, List.map_map, List.map_map]
  cases b.outgoingRef.bind rho <;> rfl

theorem LoopBlock.links_rename (id : String) (l : LoopBlock) :
    l.links (rho.rename f) (f id) = (l.links rho id).map (Link.rename f) := by
  rw [links, links, linksInto_rename, Resolver.bind_rename, List.map_append]
  cases l.bodyRef.bind rho <;> rfl

theorem Route.link?_rename (r : Route) :
    r.link? (rho.rename f) = (r.link? rho).map (Link.rename f) := by
  rw [link?, link?, Resolver.rename]
  cases rho r.fromRef <;> cases h : rho r.toRef <;> simp [Resolver.rename, h, Link.rename]

theorem Conditional.payload_rename (c : Conditional) :
    c.payload (rho.rename f) = (c.payload rho).rename f := by
  simp [payload, NodeData.rename, Resolver.rename]

theorem ParallelBlock.payload_rename (join : String) (b : ParallelBlock) :
    b.payload (rho.rename f) (f join) = (b.payload rho join).rename f := by
  simp [payload, NodeData.rename]

theorem loopNode_rename (l : LoopBlock) (id : String) (body : Option String) :
    loopNode l (f id) (body.map f) = (loopNode l id body).rename f := by
  cases l <;> rfl

theorem dependencyEnds_rename (actions : List Action) :
    dependencyEnds (rho.rename f) actions
      = (dependencyEnds rho actions).map fun e => (f e.1, f e.2) := by
  rw [dependencyEnds, dependencyEnds, List.map_flatMap]
  congr 1
  funext a
  rw [Resolver.filterMap_rename, Resolver.rename]
  cases rho a.localId with
  | none => rfl
  | some target => simp

end

/-! ### Dependencies -/

theorem nodup_eraseDups [BEq α] [LawfulBEq α] (xs : List α) : xs.eraseDups.Nodup := by
  induction xs using List.reverseRecOn with
  | nil => simp
  | append_singleton xs x ih =>
    rw [List.eraseDups_append]
    by_cases old : x ∈ xs
    · have gone : [x].removeAll xs = [] := by simp [List.removeAll, old]
      simpa [gone] using ih
    · have kept : ([x].removeAll xs).eraseDups = [x] := by
        simp [List.removeAll, old, List.eraseDups_cons]
      rw [kept]
      exact List.nodup_append.mpr ⟨ih, by simp, fun y hy z hz => by
        rw [List.mem_singleton.mp hz]
        exact fun same => old (same ▸ List.mem_eraseDups.mp hy)⟩

theorem nodup_dependencyLinks (drawn : List Link) (ends : List (String × String)) :
    (dependencyLinks drawn ends).Nodup := by
  refine List.Nodup.map (fun e e' same => ?_) (List.Nodup.filter _ (nodup_eraseDups ends))
  simpa [Prod.ext_iff] using same

theorem dependencyEnds_within {rho : Resolver} {ids : List String} (into : rho.Into ids)
    (actions : List Action) : ∀ e ∈ dependencyEnds rho actions, e.1 ∈ ids ∧ e.2 ∈ ids := by
  intro e he
  obtain ⟨a, -, ha⟩ := List.mem_flatMap.mp he
  obtain ⟨target, ht, hst⟩ := List.mem_flatMap.mp ha
  obtain ⟨source, hs, rfl⟩ := List.mem_map.mp hst
  exact ⟨into.of_filterMap hs, into _ _ (Option.mem_toList.mp ht)⟩

section
variable {f : String → String} {ids : List String} (inj : Set.InjOn f {id | id ∈ ids})
include inj

theorem Link.onSuccess_rename {k : Link} (within : k.Within ids) {source target : String}
    (hs : source ∈ ids) (ht : target ∈ ids) :
    (k.rename f).onSuccess (f source) (f target) = k.onSuccess source target := by
  simp only [onSuccess, rename, inj.eq_iff within.1 hs, inj.eq_iff within.2 ht]

/-- What dependencies add to a drawing does not depend on names and order. -/
theorem dependencyLinks_rename {drawn drawn' : List Link} {ends ends' : List (String × String)}
    (within : ∀ k ∈ drawn, k.Within ids) (joins : ∀ e ∈ ends, e.1 ∈ ids ∧ e.2 ∈ ids)
    (sameDrawn : (drawn.map (Link.rename f)).Perm drawn')
    (sameEnds : (ends.map fun e => (f e.1, f e.2)).Perm ends') :
    ((dependencyLinks drawn ends).map (Link.rename f)).Perm (dependencyLinks drawn' ends') := by
  have apart : ((dependencyLinks drawn ends).map (Link.rename f)).Nodup := by
    refine (nodup_dependencyLinks drawn ends).map_on fun l hl l' hl' same => ?_
    obtain ⟨e, he, -, rfl⟩ := mem_dependencyLinks.mp hl
    obtain ⟨e', he', -, rfl⟩ := mem_dependencyLinks.mp hl'
    simp only [Link.rename, Link.mk.injEq] at same ⊢
    exact ⟨inj (joins e he).1 (joins e' he').1 same.1, inj (joins e he).2 (joins e' he').2 same.2.1,
      same.2.2⟩
  -- The two lists have no repeats, so it is enough that they have the same members.
  refine (List.perm_ext_iff_of_nodup apart (nodup_dependencyLinks drawn' ends')).mpr fun l => ?_
  rw [List.mem_map, mem_dependencyLinks]
  have untouched {e : String × String} (he : e ∈ ends) :
      (∀ k ∈ drawn', ¬k.onSuccess (f e.1) (f e.2)) ↔ ∀ k ∈ drawn, ¬k.onSuccess e.1 e.2 := by
    obtain ⟨hs, ht⟩ := joins e he
    simp only [← sameDrawn.mem_iff, List.forall_mem_map]
    refine forall₂_congr fun k hk => ?_
    rw [Link.onSuccess_rename inj (within k hk) hs ht]
  constructor
  · rintro ⟨k, hk, rfl⟩
    obtain ⟨e, he, fresh, rfl⟩ := mem_dependencyLinks.mp hk
    exact ⟨_, sameEnds.mem_iff.mp (List.mem_map_of_mem he), (untouched he).mpr fresh, rfl⟩
  · rintro ⟨e', he', fresh, rfl⟩
    obtain ⟨e, he, rfl⟩ := List.mem_map.mp (sameEnds.mem_iff.mpr he')
    exact ⟨_, mem_dependencyLinks.mpr ⟨e, he, (untouched he).mp fresh, rfl⟩, rfl⟩

end

end Flowgraph
