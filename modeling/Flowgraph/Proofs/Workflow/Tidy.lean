import Flowgraph.Pipeline
import Flowgraph.Proofs.Acceptance
import Flowgraph.Proofs.Materializing
import Flowgraph.Proofs.Workflow.Rereading

/-! Tidy workflows on their way through the stages: whatever is read is tidy, and neither resolving nor the
    repairs nor the user's id make it less so. -/

namespace Flowgraph

open Json Json.Record

/-! ### Reading -/

/-- The members that no field knows do not have the name of one. -/
theorem rest_gives_free {get : σ → Object} {scope : Scope} {ms : Object}
    (hs : scope.shape = .named (membersToTrees ms)) (hp : scope.place.origin ≠ .text) :
    (rest get).Gives scope fun o => o.FreeOf scope.known := by
  intro i o h m hm
  simp only [rest, gathered, hs, Rereads.strayValues_toTrees hp] at h
  cases h
  have stray := Object.mem_ofList hm
  rw [Value.canonicalMembers_eq_map] at stray
  obtain ⟨n, hn, rfl⟩ := List.mem_map.mp stray
  simpa using (List.mem_filter.mp hn).2

namespace EntryKind

/-- The members that are carried along. -/
def extra : (k : EntryKind) → k.Part → Object
  | .trigger => Trigger.extra
  | .action => Action.extra

def fieldNames : EntryKind → List String
  | .trigger => Trigger.fieldNames
  | .action => Action.fieldNames

theorem free_of_decode (k : EntryKind) {p : Place} {item : Value} {x : k.Part} (hp : p.origin ≠ .text)
    (read : k.codec.decode p item.toTree = .ok x) : (k.extra x).FreeOf k.fieldNames := by
  obtain ⟨ms, rfl⟩ := k.obj_of_decode read
  cases k
  all_goals
    refine Record.decode_obj_gives (Q := fun x => (extra _ x).FreeOf _) hp read
      (.seq ?_ (rest_gives_free rfl hp))
    repeat refine Gives.seq ?_ .any
    exact .map fun _ _ _ => by beta_reduce; intros; assumption

end EntryKind

namespace Workflow

/-- A workflow that was read is tidy. -/
theorem tidy_of_ofValue {doc : Value} {w : Workflow} (h : Workflow.ofValue doc = .ok w) :
    w.Tidy := by
  obtain ⟨ms, rfl, parts⟩ := readFrom_of_ofValue h
  have free (k : EntryKind) : ∀ x ∈ k.parts w, (k.extra x).FreeOf k.fieldNames := by
    obtain ⟨items, -, each⟩ := parts.part k
    refine (forall_mem_iff_of_forall₂ (P := fun _ => True) each fun _ _ read => ?_).mp fun _ _ => trivial
    exact ⟨fun _ => k.free_of_decode (by decide) read, fun _ => trivial⟩
  refine ⟨?_, free .trigger, free .action⟩
  refine Record.decode_obj_gives (Q := fun w => w.extra.FreeOf fieldNames) (by decide) h
    (.seq ?_ (rest_gives_free rfl nofun))
  iterate 5 refine Gives.seq ?_ .any
  exact .map fun _ _ _ => by beta_reduce; intros; assumption

/-! ### The stages -/

theorem Tidy.resolve {w : Workflow} (h : w.Tidy) (c : Context) : (c.resolve w).value.Tidy := by
  rw [Context.value_resolve]
  refine ⟨?_, ?_, ?_⟩
  · rw [Context.injectDefaults]
    split <;> exact h.extra
  · rw [Context.triggers_injectDefaults]
    refine List.forall_mem_map.mpr fun x hx => ?_
    have free := h.triggers x.1 (List.fst_mem_of_mem_zipIdx hx)
    rcases c.resolveTrigger_cases w.id w.version (indexed "triggers" x.2) x.1 with
      ⟨-, same⟩ | ⟨hit, id, -, -, same⟩ <;> rw [same] <;> exact free
  · rw [Context.actions_injectDefaults]
    refine List.forall_mem_map.mpr fun x hx => ?_
    have free := h.actions x.1 (List.fst_mem_of_mem_zipIdx hx)
    rcases c.resolveAction_cases (indexed "actions" x.2) x.1 with
      ⟨-, same⟩ | ⟨hit, id, -, -, same⟩ <;> rw [same] <;> exact free

theorem Tidy.withUser {w : Workflow} (h : w.Tidy) (userId : Option String) :
    (Pipeline.withUser w userId).Tidy := by
  cases userId with
  | none => exact h
  | some id =>
    simp only [Pipeline.withUser]
    split
    · exact h
    · refine ⟨fun m hm => ?_, h.triggers, h.actions⟩
      rcases Object.mem_put hm with rfl | hm
      · show "user_id" ∉ fieldNames
        decide
      · exact h.extra m hm

end Workflow

namespace RepairStrategy

/-- Repairs that give no member the name of a field. -/
def KeepsTidy (repair : RepairStrategy) : Prop := ∀ w log, w.Tidy → (repair w log).1.Tidy

theorem none_keepsTidy : none.KeepsTidy := fun _ _ h => h

end RepairStrategy

/-- An executable that is handed out is tidy and can be run. -/
theorem Materializer.tidy_of_compile {m : Materializer} (keeps : m.repair.KeepsTidy)
    {template : Value} {c : Context} {d : Workflow}
    (h : (m.compile template c).document = some d) : d.Tidy ∧ d.Runnable := by
  obtain ⟨w, log, read, rfl, runnable⟩ := exists_of_compile_eq_some h
  exact ⟨keeps _ log ((Workflow.tidy_of_ofValue read).resolve c), runnable⟩

end Flowgraph
