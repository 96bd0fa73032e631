import Flowgraph.Executable.Materialize
import Flowgraph.Proofs.Placeholder
import Flowgraph.Proofs.Straightening

/-! Preparing a template in place. To fill in answers and to straighten numbers is to work on the members of a
    template where they stand, so it goes together with other work on members. -/

namespace Flowgraph

open Json Placeholder PolicyNumbers

/-! ### Work on members -/

namespace Json.Value

variable {v : Value} {key key' : String} {f g : Value → Value}

theorem updateMember_updateMember (v : Value) (key : String) (f g : Value → Value) :
    (v.updateMember key f).updateMember key g = v.updateMember key fun u => g (f u) := by
  cases v with
  | obj o =>
    rw [updateMember, updateMember, updateMember, List.map_map]
    congr 2
    funext m
    by_cases here : m.1 = key <;> simp [here]
  | null | bool _ | num _ | str _ | arr _ => rfl

theorem updateMember_comm (other : key ≠ key') (v : Value) (f g : Value → Value) :
    (v.updateMember key f).updateMember key' g = (v.updateMember key' g).updateMember key f := by
  cases v with
  | obj o =>
    simp only [updateMember, List.map_map]
    congr 2
    funext m
    by_cases here : m.1 = key
    · simp [here, other]
    · by_cases there : m.1 = key' <;> simp [here, there, other.symm]
  | null | bool _ | num _ | str _ | arr _ => rfl

theorem apply_updateMember {answers : Object} (commutes : ∀ u, apply answers (f u) = g (apply answers u))
    (v : Value) : apply answers (v.updateMember key f) = (apply answers v).updateMember key g := by
  cases v with
  | obj o =>
    rw [updateMember, apply_obj, apply_obj, updateMember]
    simp only [Object.mapValues, List.map_map]
    congr 2
    funext m
    by_cases here : m.1 = key <;> simp [here, commutes]
  | null | bool _ | num _ | str _ | arr _ => rfl

theorem canonical_updateMember (canonical : v.canonical = v)
    (keeps : ∀ u, u.canonical = u → (f u).canonical = f u) :
    (v.updateMember key f).canonical = v.updateMember key f := by
  cases v with
  | obj o =>
    rw [updateMember_obj]
    refine Object.canonical_rework canonical fun k u w same made => ?_
    rw [Object.atKey] at made
    split at made
    · cases made
      exact keeps u same
    · cases made
      exact same
  | null | bool _ | num _ | str _ | arr _ => exact canonical

theorem canonical_mapItems (canonical : v.canonical = v)
    (keeps : ∀ u, u.canonical = u → (f u).canonical = f u) :
    (v.mapItems f).canonical = v.mapItems f := by
  cases v with
  | arr items =>
    rw [mapItems, Value.canonical, canonicalItems_eq_map]
    refine congrArg Value.arr (map_eq_self fun u mem => ?_)
    obtain ⟨w, hw, rfl⟩ := List.mem_map.mp mem
    exact keeps w (canonical_of_mem canonical hw)
  | null | bool _ | num _ | str _ | obj _ => exact canonical

theorem canonical_rework {h : String → Value → Option Value} (canonical : v.canonical = v)
    (keeps : ∀ k u w, u.canonical = u → h k u = some w → w.canonical = w) :
    (v.rework h).canonical = v.rework h := by
  cases v with
  | obj o => exact Object.canonical_rework canonical keeps
  | null | bool _ | num _ | str _ | arr _ => exact canonical

end Json.Value

/-! ### Straightening in place -/

namespace PolicyNumbers

def straightActions (actions : Value) : Value := actions.mapItems (·.rework (settleSet actionFields))

def straightPolicies (policies : Value) : Value := policies.rework (settleSet policiesFields)

def straightLoops (flow : Value) : Value :=
  flow.updateMember "loops" (·.mapItems (·.rework (settleFields loopFields)))

/-- The document with the numbers of its actions, its policies and its loops straightened. -/
def straightened (doc : Value) : Value :=
  ((doc.updateMember "actions" straightActions).updateMember "policies" straightPolicies).updateMember
    "flow_control" straightLoops

theorem member?_straightened (doc : Value) :
    (straightened doc).member? "actions" = (doc.member? "actions").map straightActions ∧
      (straightened doc).member? "policies" = (doc.member? "policies").map straightPolicies ∧
      (straightened doc).member? "flow_control"
        = (doc.member? "flow_control").map straightLoops := by
  simp [straightened, Value.member?_updateMember]

theorem canonical_settleSet {fields : List NumericField} (key : String) (v w : Value)
    (canonical : v.canonical = v) (made : settleSet fields key v = some w) : w.canonical = w := by
  rw [settleSet] at made
  split at made
  · exact canonical_settleObject canonical made
  · split at made
    · exact canonical_settleObject canonical made
    · exact canonical_settleFields canonical made

theorem value_onMember_eq {key : String} {f : Value → Traced Value} {g : Value → Value} {v : Value}
    (canonical : v.canonical = v) (same : ∀ u, u.canonical = u → (f u).value = g u) :
    (onMember key f v).value = v.updateMember key g := by
  cases v with
  | obj o =>
    obtain ⟨sorted, each⟩ := Object.canonical_iff.mp canonical
    rw [value_onMember sorted, Value.updateMember_obj]
    refine congrArg Value.obj (List.filterMap_congr fun m mem => congrArg (Option.map _) ?_)
    by_cases here : m.1 = key
    · simp [Object.atKey, here, same m.2 (each m mem)]
    · simp [Object.atKey, here]
  | null | bool _ | num _ | str _ | arr _ => rfl

section
variable {v : Value} (canonical : v.canonical = v)
include canonical

theorem canonical_straightActions : (straightActions v).canonical = straightActions v :=
  Value.canonical_mapItems canonical fun _ same => Value.canonical_rework same canonical_settleSet

theorem canonical_straightPolicies : (straightPolicies v).canonical = straightPolicies v :=
  Value.canonical_rework canonical canonical_settleSet

theorem canonical_straightLoops : (straightLoops v).canonical = straightLoops v :=
  Value.canonical_updateMember canonical fun _ same => Value.canonical_mapItems same
    fun _ same => Value.canonical_rework same fun _ _ _ => canonical_settleFields

theorem value_onItems_actions :
    (onItems "actions" (coercePolicySet · actionFields) v).value = straightActions v :=
  value_onItems_eq canonical fun path _ same =>
    value_coercePolicySet_eq same path plainNames_actionFields

theorem value_coercePolicySet_policies :
    (coercePolicySet "policies" policiesFields v).value = straightPolicies v :=
  value_coercePolicySet_eq canonical "policies" plainNames_policiesFields

theorem value_onMember_loops :
    (onMember "loops" (onItems "flow_control.loops" coerceLoop) v).value = straightLoops v :=
  value_onMember_eq canonical fun _ same => value_onItems_eq same fun path _ same =>
    value_coerceLoop_eq same path

/-- To straighten the numbers of a document is to do so where they stand. -/
theorem value_coerce_eq : (coerce v).value = straightened v := by
  have first : (v.updateMember "actions" straightActions).canonical = _ :=
    Value.canonical_updateMember canonical fun _ => canonical_straightActions
  have second : (Value.updateMember "policies" straightPolicies _).canonical = _ :=
    Value.canonical_updateMember first fun _ => canonical_straightPolicies
  simp only [coerce, Traced.value_bind]
  rw [value_onMember_eq canonical fun _ => value_onItems_actions,
    value_onMember_eq first fun _ => value_coercePolicySet_policies,
    value_onMember_eq second fun _ => value_onMember_loops]
  rfl

theorem canonical_straightened : (straightened v).canonical = straightened v :=
  Value.canonical_updateMember (Value.canonical_updateMember (Value.canonical_updateMember canonical
    fun _ => canonical_straightActions) fun _ => canonical_straightPolicies)
    fun _ => canonical_straightLoops

end

end PolicyNumbers

/-! ### Templates -/

namespace Materializer

/-- A template is prepared by filling in the answers and straightening the numbers where they stand. -/
theorem value_prepare {template : Value} (canonical : template.canonical = template)
    (answers : Object) : (prepare template answers).value = straightened (apply answers template) := by
  simp only [prepare, Traced.value_bind]
  refine value_coerce_eq ?_
  rw [canonical_apply, canonical]

theorem canonical_prepare {template : Value} (canonical : template.canonical = template)
    (answers : Object) :
    (prepare template answers).value.canonical = (prepare template answers).value := by
  rw [value_prepare canonical]
  refine canonical_straightened ?_
  rw [canonical_apply, canonical]

end Materializer

end Flowgraph
