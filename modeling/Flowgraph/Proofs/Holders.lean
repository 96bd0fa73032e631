import Flowgraph.Proofs.Containment
import Flowgraph.Proofs.Workflow.SettledPolicies

/-! Where the numbers of a template stand: in its actions, in the policies of the workflow and in its loops.
    A template is prepared in each of these places by itself, so putting something else in one of them before
    or after comes to the same. -/

namespace Flowgraph

open Json Placeholder PolicyNumbers

/-! ### Replacing parts of values -/

namespace Json.Value

/-- The list with another item in one place. -/
def setItem (v : Value) (i : Nat) (x : Value) : Value :=
  match v with
  | .arr items => .arr (items.set i x)
  | v => v

variable {v : Value}

theorem mapItems_setItem (i : Nat) (x v : Value) (f : Value → Value) :
    (v.setItem i x).mapItems f = (v.mapItems f).setItem i (f x) := by
  cases v with
  | arr items => simp only [setItem, mapItems, List.map_set]
  | null | bool _ | num _ | str _ | obj _ => rfl

theorem isNull_setItem (i : Nat) (x v : Value) : (v.setItem i x).isNull = v.isNull := by
  cases v <;> rfl

theorem mem_of_mem_setItem {i : Nat} {x item : Value} (mem : item ∈ (v.setItem i x).items) :
    item ∈ v.items ∨ item = x := by
  cases v with
  | arr items => exact List.mem_or_eq_of_mem_set mem
  | null | bool _ | num _ | str _ | obj _ => exact .inl mem

theorem items_mapItems (f : Value → Value) (v : Value) : (v.mapItems f).items = v.items.map f := by
  cases v <;> rfl

theorem items_apply (answers : Object) (v : Value) :
    (apply answers v).items = v.items.map (apply answers) := by
  cases v with
  | arr vs => exact applyItems_eq_map answers vs
  | null | bool _ | num _ | str _ | obj _ => rfl

theorem apply_setItem (answers : Object) (i : Nat) (x v : Value) :
    apply answers (v.setItem i x) = (apply answers v).setItem i (apply answers x) := by
  cases v with
  | arr items => simp only [setItem, apply, applyItems_eq_map, List.map_set]
  | null | bool _ | num _ | str _ | obj _ => rfl

theorem canonical_setItem {i : Nat} {x : Value} (canonical : v.canonical = v) (same : x.canonical = x) :
    (v.setItem i x).canonical = v.setItem i x := by
  cases v with
  | arr items =>
    rw [setItem, Value.canonical, canonicalItems_eq_map]
    refine congrArg Value.arr (map_eq_self fun u mem => ?_)
    rcases List.mem_or_eq_of_mem_set mem with old | rfl
    · exact canonical_of_mem canonical old
    · exact same
  | null | bool _ | num _ | str _ | obj _ => exact canonical

end Json.Value

/-! ### Holders -/

/-- What holds numbers in a template: an action, the policies of the workflow, or a loop. -/
inductive Holder where
  | action (i : Nat)
  | policies
  | loop (i : Nat)

namespace Holder

/-- The keys of its numbers and policies. -/
def keys : Holder → List String
  | .action _ => "retry" :: "rate_limit" :: actionFields.map Prod.fst
  | .policies => "retry" :: "rate_limit" :: policiesFields.map Prod.fst
  | .loop _ => loopFields.map Prod.fst

/-- What becomes of the value under a key. -/
def settle : Holder → String → Value → Option Value
  | .action _ => settleSet actionFields
  | .policies => settleSet policiesFields
  | .loop _ => settleFields loopFields

/-- What there is in the template. -/
def find? (template : Value) : Holder → Option Value
  | .action i => (template.itemsAt "actions")[i]?
  | .policies => template.member? "policies"
  | .loop i => (template.member? "flow_control").bind fun flow => (flow.itemsAt "loops")[i]?

/-- The template with something else in this place. -/
def replace (template x : Value) : Holder → Value
  | .action i => template.updateMember "actions" (·.setItem i x)
  | .policies => template.updateMember "policies" fun _ => x
  | .loop i => template.updateMember "flow_control" fun flow =>
      flow.updateMember "loops" (·.setItem i x)

/-- A policy passes with a number that is `null`. Loops hold no policies. -/
def leavesNull (v : Value) : Holder → Bool
  | .action _ | .policies => leavesNullWithin v
  | .loop _ => false

theorem apply_replace (h : Holder) (answers : Object) (template x : Value) :
    apply answers (h.replace template x) = h.replace (apply answers template) (apply answers x) := by
  cases h with
  | action i =>
    simp only [replace]
    exact Value.apply_updateMember (fun u => Value.apply_setItem answers i x u) template
  | policies =>
    simp only [replace]
    refine Value.apply_updateMember (fun _ => ?_) template
    rfl
  | loop i =>
    simp only [replace]
    refine Value.apply_updateMember (fun u => ?_) template
    exact Value.apply_updateMember (fun u => Value.apply_setItem answers i x u) u

/-- It is the same to straighten a template and then to replace a part by a straightened one. -/
theorem straightened_replace (h : Holder) (template x : Value) :
    straightened (h.replace template x) = h.replace (straightened template) (x.rework h.settle) := by
  cases h with
  | action i =>
    have inside (u : Value) : straightActions (u.setItem i x)
        = (straightActions u).setItem i (x.rework (settleSet actionFields)) :=
      Value.mapItems_setItem i x u _
    simp only [straightened, replace, settle]
    rw [← Value.updateMember_comm (by decide : "actions" ≠ "flow_control"),
      ← Value.updateMember_comm (by decide : "actions" ≠ "policies"),
      Value.updateMember_updateMember, Value.updateMember_updateMember]
    simp only [inside]
  | policies =>
    simp only [straightened, replace, settle]
    rw [← Value.updateMember_comm (by decide : "policies" ≠ "flow_control"),
      ← Value.updateMember_comm (by decide : "actions" ≠ "policies"),
      Value.updateMember_updateMember, Value.updateMember_updateMember]
    rfl
  | loop i =>
    have inside (u : Value) : straightLoops (u.updateMember "loops" (·.setItem i x))
        = (straightLoops u).updateMember "loops" (·.setItem i (x.rework (settleFields loopFields))) := by
      simp only [straightLoops, Value.updateMember_updateMember, Value.mapItems_setItem]
    simp only [straightened, replace, settle]
    rw [Value.updateMember_comm (by decide : "flow_control" ≠ "actions"),
      Value.updateMember_comm (by decide : "flow_control" ≠ "policies"),
      Value.updateMember_updateMember, Value.updateMember_updateMember]
    simp only [inside]

theorem find?_straightened (h : Holder) (template : Value) :
    h.find? (straightened template) = (h.find? template).map (·.rework h.settle) := by
  obtain ⟨actions, policies, flow⟩ := member?_straightened template
  cases h with
  | action i =>
    simp only [find?, Value.itemsAt_eq, actions, settle]
    cases template.member? "actions" with
    | none => rfl
    | some u => simp [straightActions, Value.items_mapItems]
  | policies =>
    simp only [find?, policies, settle]
    rfl
  | loop i =>
    simp only [find?, flow, settle]
    cases template.member? "flow_control" with
    | none => rfl
    | some u =>
      simp only [Option.map_some, Option.bind_some, straightLoops, Value.itemsAt_eq,
        Value.member?_updateMember, if_true]
      cases u.member? "loops" with
      | none => rfl
      | some v => simp [Value.items_mapItems]

theorem find?_apply (h : Holder) (answers : Object) (template : Value) :
    h.find? (apply answers template) = (h.find? template).map (apply answers) := by
  cases h with
  | action i =>
    simp only [find?, Value.itemsAt_eq, member?_apply]
    cases template.member? "actions" with
    | none => rfl
    | some u => simp [Value.items_apply]
  | policies => simp [find?, member?_apply]
  | loop i =>
    simp only [find?, member?_apply]
    cases template.member? "flow_control" with
    | none => rfl
    | some flow =>
      simp only [Value.itemsAt_eq, Option.map_some, Option.bind_some, member?_apply]
      cases flow.member? "loops" with
      | none => rfl
      | some u => simp [Value.items_apply]

theorem canonical_replace (h : Holder) {template x : Value} (canonical : template.canonical = template)
    (same : x.canonical = x) : (h.replace template x).canonical = h.replace template x := by
  cases h with
  | action i =>
    exact Value.canonical_updateMember canonical fun u settled => Value.canonical_setItem settled same
  | policies => exact Value.canonical_updateMember canonical fun _ _ => same
  | loop i =>
    exact Value.canonical_updateMember canonical fun u settled =>
      Value.canonical_updateMember settled fun u settled => Value.canonical_setItem settled same

end Holder

namespace Materializer

theorem prepare_replace (h : Holder) {template x : Value} (canonical : template.canonical = template)
    (same : x.canonical = x) (answers : Object) :
    (prepare (h.replace template x) answers).value
      = h.replace (prepare template answers).value ((apply answers x).rework h.settle) := by
  rw [value_prepare (h.canonical_replace canonical same), value_prepare canonical, h.apply_replace,
    h.straightened_replace]

theorem find?_prepare (h : Holder) {template : Value} (canonical : template.canonical = template)
    (answers : Object) :
    h.find? (prepare template answers).value
      = (h.find? template).map fun u => (apply answers u).rework h.settle := by
  rw [value_prepare canonical, h.find?_straightened, h.find?_apply, Option.map_map]
  rfl

end Materializer

end Flowgraph
