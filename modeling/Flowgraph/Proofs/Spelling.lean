import Flowgraph.Proofs.Workflow.NormalForm

/-! Lowering does not depend on how an executable is spelt. Validation looks at a document before it is
    read, but of a document that can be read it finds nothing that the workflow does not show: all fields
    are there, and an exec block is missing just where the workflow has none. Whatever is read as the same
    workflow is therefore lowered to the same outcome, and so is the document that is written from it. -/

namespace Flowgraph

open Json

theorem Path.requireFields_of_present {doc : Value} {fields : List String}
    (h : fields.all (Path.isPresent doc) = true) (path : String) :
    Path.requireFields doc fields path = pure true := by
  have there : fields.find? (fun f => !Path.isPresent doc f) = none := by
    rw [List.find?_eq_none]
    intro f hf
    simp [List.all_eq_true.mp h f hf]
  rw [requireFields, there]

/-- Steps that agree item by item lead to the same end. -/
theorem foldlM_of_forall₂ {R : α → γ → Prop} {f : β → α → Traced β} {g : β → γ → Traced β}
    {xs : List α} {ys : List γ} (agree : List.Forall₂ R xs ys)
    (step : ∀ x y, R x y → ∀ b, f b x = g b y) (b : β) : xs.foldlM f b = ys.foldlM g b := by
  induction agree generalizing b with
  | nil => rfl
  | cons same _ ih =>
    rw [List.foldlM_cons, List.foldlM_cons, step _ _ same b]
    exact congrArg _ (funext ih)

namespace Lowerer

/-- What is left of validation for a document that can be read: to ask for the exec blocks. -/
def checkExec (equipment : List (String × Bool)) : Traced Bool :=
  equipment.foldlM (fun valid x => do
    if !x.2 then
      Traced.error .missingExecBlock x.1
        "Entity has no exec block; materialize the template first" none
    pure (valid && x.2)) true

/-- Validation sees of a document only what the workflow shows. -/
theorem validate_of_ofValue {doc : Value} {w : Workflow} (read : Workflow.ofValue doc = .ok w) :
    validate doc = checkExec w.equipment := by
  rw [validate, checkExec, Path.requireFields_of_present (Workflow.required_of_ofValue read), pure_bind]
  refine foldlM_of_forall₂ (Workflow.entities_of_ofValue read) (fun e x agree valid => ?_) true
  obtain ⟨path, named, exec⟩ := agree
  have there (path : String) : Path.requireFields e.2 ["local_id"] path = pure true :=
    Path.requireFields_of_present (by simpa using named) path
  simp only [there, pure_bind, path, exec, Bool.and_true]

/-- Documents that are read as the same workflow are lowered alike. -/
theorem compile_eq_of_ofValue {doc doc' : Value} {w : Workflow}
    (read : Workflow.ofValue doc = .ok w) (read' : Workflow.ofValue doc' = .ok w) (l : Lowerer) :
    l.compile doc = l.compile doc' := by
  rw [compile, compile, validate_of_ofValue read, validate_of_ofValue read', read, read']

/-- An executable with finite doubles is lowered to the same graph with the same report as the workflow
    that is read from it. -/
theorem compile_eq_compileDocument (l : Lowerer) (executable : Value) (w : Workflow)
    (read : Workflow.ofValue executable = .ok w) (finite : w.isFinite = true) :
    l.compile executable = l.compileDocument w := by
  have written : Workflow.ofValue w.toValue = .ok w := by
    rw [Workflow.ofValue_toValue (Workflow.tidy_of_ofValue read)]
    exact ⟨finite, Workflow.canonical_of_ofValue read⟩
  exact compile_eq_of_ofValue read written l

theorem compile_eq_compileDocument_loose :
    ∃ w, Workflow.ofValue Workflow.looseDocument = .ok w ∧ w.toValue ≠ Workflow.looseDocument ∧
      (standard.compileDocument w).document.isSome ∧
      standard.compile Workflow.looseDocument = standard.compileDocument w := by
  have there : (Workflow.ofValue Workflow.looseDocument).toOption.map
      (fun w => (w.isFinite, decide (w.toValue = Workflow.looseDocument),
        (standard.compileDocument w).document.isSome)) = some (true, false, true) := by
    decide +kernel
  obtain ⟨w, made, same⟩ := Option.map_eq_some_iff.mp there
  obtain ⟨finite, rest⟩ := Prod.mk.inj same
  obtain ⟨other, drawn⟩ := Prod.mk.inj rest
  have read := eq_ok_of_toOption made
  exact ⟨w, read, of_decide_eq_false other, drawn,
    compile_eq_compileDocument standard Workflow.looseDocument w read finite⟩

end Lowerer

end Flowgraph
