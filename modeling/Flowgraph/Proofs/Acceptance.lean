import Flowgraph.Catalog
import Flowgraph.Dag.Lower
import Flowgraph.Proofs.Json.Reading
import Flowgraph.Proofs.References
import Flowgraph.Proofs.Traced

/-! What a lowerer takes for an executable: a document that passes validation and reads as a workflow. These
    are just the documents that read as a workflow in which every trigger and action has its exec block. -/

namespace Flowgraph

open Json Json.Record

/-! ### Validation -/

theorem Path.value_requireFields (doc : Value) (fields : List String) (path : String) :
    (Path.requireFields doc fields path).value = fields.all (Path.isPresent doc) := by
  rw [Path.requireFields]
  cases h : fields.find? (fun f => !Path.isPresent doc f) with
  | none =>
    have all_there : fields.all (Path.isPresent doc) = true := by
      simpa using List.find?_eq_none.mp h
    rw [all_there]; rfl
  | some f =>
    have absent : Path.isPresent doc f = false := by simpa using List.find?_some h
    have some_not : fields.all (Path.isPresent doc) = false :=
      List.all_eq_false.mpr ⟨f, List.mem_of_find?_eq_some h, by simp [absent]⟩
    rw [some_not]; rfl

/-- The one error of fields that are not all there. -/
theorem Path.errors_requireFields (doc : Value) (fields : List String) (path : String) :
    (Path.requireFields doc fields path).log.errors
      = match fields.find? fun f => !Path.isPresent doc f with
        | none => []
        | some f => [⟨.missingRequiredField, below path f,
            "Required field '" ++ f ++ "' is missing", none⟩] := by
  rw [Path.requireFields]
  cases fields.find? fun f => !Path.isPresent doc f <;> rfl

theorem Path.errors_requireFields_eq_nil {doc : Value} {fields : List String} {path : String} :
    (Path.requireFields doc fields path).log.errors = []
      ↔ fields.all (Path.isPresent doc) = true := by
  rw [errors_requireFields]
  cases h : fields.find? fun f => !Path.isPresent doc f with
  | none => simpa using List.find?_eq_none.mp h
  | some f =>
    have absent := List.find?_some h
    simp only [reduceCtorEq, false_iff, List.all_eq_true]
    exact fun all => by simp [all f (List.mem_of_find?_eq_some h)] at absent

/-- A row of checks holds if the first and all others do. -/
theorem foldl_and (check : α → Bool) (xs : List α) (valid : Bool) :
    xs.foldl (fun valid x => valid && check x) valid = (valid && xs.all check) := by
  induction xs generalizing valid with
  | nil => simp
  | cons x xs ih => rw [List.foldl_cons, ih, List.all_cons, Bool.and_assoc]

namespace Lowerer

/-- What each trigger and action of an executable has. -/
def entityIsFine (item : Value) : Bool := Path.isPresent item "local_id" && hasExec item

theorem value_validate (executable : Value) :
    (validate executable).value
      = (requiredFields.all (Path.isPresent executable)
        && (entities executable).all fun e => entityIsFine e.2) := by
  rw [validate, Traced.value_bind, Traced.value_foldlM, Path.value_requireFields, ← foldl_and]
  congr 1
  funext valid e
  simp only [Traced.value_bind, Path.value_requireFields]
  split <;> simp [entityIsFine, Bool.and_assoc]

theorem errors_validate (executable : Value) :
    (validate executable).log.errors
      = (Path.requireFields executable requiredFields "").log.errors
        ++ (entities executable).flatMap fun e =>
          (Path.requireFields e.2 ["local_id"] e.1).log.errors
            ++ if hasExec e.2 then [] else [⟨.missingExecBlock, e.1,
              "Entity has no exec block; materialize the template first", none⟩] := by
  rw [validate, Traced.log_bind, Diagnostics.errors_append, Traced.errors_foldlM]
  intro valid e
  simp only [Traced.log_bind, Diagnostics.errors_append]
  cases hasExec e.2 <;> simp

/-- Validation reports an error just if it fails. -/
theorem errors_validate_eq_nil {executable : Value} :
    (validate executable).log.errors = [] ↔ (validate executable).value = true := by
  rw [errors_validate, value_validate, List.append_eq_nil_iff, List.flatMap_eq_nil_iff,
    Path.errors_requireFields_eq_nil, Bool.and_eq_true, List.all_eq_true (l := entities executable)]
  refine and_congr_right fun _ => forall₂_congr fun e _ => ?_
  rw [List.append_eq_nil_iff, Path.errors_requireFields_eq_nil, entityIsFine]
  cases hasExec e.2 <;> simp

theorem code_of_mem_errors_validate {executable : Value} :
    ∀ e ∈ (validate executable).log.errors,
      e.code = .missingRequiredField ∨ e.code = .missingExecBlock := by
  have required {doc : Value} {fields : List String} {path : String} :
      ∀ e ∈ (Path.requireFields doc fields path).log.errors, e.code = .missingRequiredField := by
    intro e he
    rw [Path.errors_requireFields] at he
    split at he
    · cases he
    · rw [List.mem_singleton.mp he]
  intro e he
  rw [errors_validate] at he
  rcases List.mem_append.mp he with he | he
  · exact .inl (required e he)
  · obtain ⟨item, -, he⟩ := List.mem_flatMap.mp he
    rcases List.mem_append.mp he with he | he
    · exact .inl (required e he)
    · split at he
      · cases he
      · rw [List.mem_singleton.mp he]
        exact .inr rfl

end Lowerer

/-! ### What a record is read from -/

section
variable {name : String} {scope : Scope} {ms : Object}
  (hs : scope.shape = .named (membersToTrees ms))
include hs

/-- A field that is never `null` has a value when it is read. -/
theorem field_gives_present {get : σ → α} {c : Codec α} (solid : ∀ p a, c.decode p .null ≠ .ok a) :
    (field name get c).Gives scope fun _ => ∃ v, Object.member? ms name = some v ∧ v ≠ .null := by
  intro i a h
  obtain ⟨v, one, hv⟩ := (read_field_eq_ok hs).mp h
  refine ⟨v, Object.member?_of_under one, ?_⟩
  rintro rfl
  exact solid _ _ hv

/-- A field that may be absent gives something just if it is there with something in it. -/
theorem maybe_gives_iff {get : σ → Option α} {c : Codec α} :
    (maybe name get c).Gives scope fun x =>
      (x.isSome ↔ ∃ v, Object.member? ms name = some v ∧ v ≠ .null) := by
  intro i x h
  rw [Object.member?_eq_head?]
  rcases (read_maybe_eq_ok hs).mp h with ⟨none_there, rfl⟩ | ⟨v, one, hv⟩
  · simp [none_there]
  · rcases Decoder.optional_eq_ok.mp hv with ⟨rfl, rfl⟩ | ⟨solid, a, -, rfl⟩
    · simp [one]
    · simp [one, solid]

/-- The items of a list, each with what it is read as. -/
theorem field_list_gives {get : σ → List α} {c : Codec α} (hp : scope.place.origin ≠ .text) :
    (field name get (.list c)).Gives scope fun xs => ∃ items,
      Object.member? ms name = some (.arr items) ∧
      List.Forall₂ (fun u x => c.decode scope.place.inner u.toTree = .ok x) items xs := by
  intro i xs h
  obtain ⟨v, one, hv⟩ := (read_field_eq_ok hs).mp h
  obtain ⟨items, rfl, hitems⟩ := (Decoder.list_eq_ok hp).mp hv
  exact ⟨items, Object.member?_of_under one, hitems⟩

end

theorem string_solid (p : Place) (s : String) : Codec.string.decode p .null ≠ .ok s := nofun

/-! ### Triggers and actions -/

theorem Path.isPresent_of_member? {ms : Object} {name : String} (plain : segments name = [name])
    (ne : name ≠ "") (h : ∃ v, Object.member? ms name = some v ∧ v ≠ .null) :
    isPresent (.obj ms) name = true := by
  obtain ⟨v, there, solid⟩ := h
  have walked : get? (.obj ms) name = some v := by
    rw [get?, if_neg ne, plain, walk?, child?, there]; rfl
  rw [isPresent, walked]
  simp [Value.isNull_eq_false.mpr solid]

theorem Lowerer.hasExec_obj {ms : Object} :
    hasExec (.obj ms) = true ↔ ∃ v, Object.member? ms "exec" = some v ∧ v ≠ .null := by
  rw [hasExec, Value.member?]
  cases Object.member? ms "exec" with
  | none => simp
  | some v => simp [Value.isNull_eq_false]

namespace EntryKind

/-- What a workflow has of a kind. -/
abbrev Part : EntryKind → Type
  | .trigger => Trigger
  | .action => Action

/-- What it takes to run it. -/
abbrev Exec : EntryKind → Type
  | .trigger => TriggerExec
  | .action => ActionExec

abbrev codec : (k : EntryKind) → Codec k.Part
  | .trigger => Trigger.codec
  | .action => Action.codec

/-- Where a document lists it. -/
def list : EntryKind → String
  | .trigger => "triggers"
  | .action => "actions"

def parts : (k : EntryKind) → Workflow → List k.Part
  | .trigger => Workflow.triggers
  | .action => Workflow.actions

def exec? : (k : EntryKind) → k.Part → Option k.Exec
  | .trigger => Trigger.exec
  | .action => Action.exec

theorem obj_of_decode (k : EntryKind) {p : Place} {item : Value} {x : k.Part}
    (read : k.codec.decode p item.toTree = .ok x) : ∃ ms, item = .obj ms := by
  cases k with
  | trigger => exact Record.obj_of_decode_eq_ok rfl read
  | action => exact Record.obj_of_decode_eq_ok rfl read

/-- What validation finds of an item that is read as a trigger or action: a local id, and an exec block just if
    there is one in what was read. -/
theorem validates_of_decode (k : EntryKind) {p : Place} {item : Value} {x : k.Part} (hp : p.origin ≠ .text)
    (read : k.codec.decode p item.toTree = .ok x) :
    Path.isPresent item "local_id" = true ∧ Lowerer.hasExec item = (k.exec? x).isSome := by
  obtain ⟨ms, rfl⟩ := k.obj_of_decode read
  obtain ⟨named, exec⟩ : (∃ v, Object.member? ms "local_id" = some v ∧ v ≠ .null) ∧
      ((k.exec? x).isSome ↔ ∃ v, Object.member? ms "exec" = some v ∧ v ≠ .null) := by
    cases k
    -- the exec block is the last field and the local id the first one
    all_goals
      refine Record.decode_obj_gives (Q := fun x => _ ∧ ((exec? _ x).isSome ↔ _)) hp read
        (.seq (.seq ?_ (maybe_gives_iff rfl)) .any)
      repeat refine Gives.seq ?_ .any
      refine .map ?_
      intro i id read
      have named := field_gives_present rfl string_solid i id read
      intros
      exact ⟨named, by assumption⟩
  exact ⟨Path.isPresent_of_member? rfl (by decide) named,
    Bool.eq_iff_iff.mpr (Lowerer.hasExec_obj.trans exec.symm)⟩

end EntryKind

/-! ### Workflows -/

/-- The place of a trigger or action in a workflow document. -/
def entityPlace : Place := ⟨.value, 2⟩

/-- The parts of a document that are read as the parts of a workflow. -/
structure Workflow.ReadFrom (ms : Object) (w : Workflow) : Prop where
  id : ∃ v, Object.member? ms "workflow_id" = some v ∧ v ≠ .null
  version : ∃ v, Object.member? ms "version" = some v ∧ v ≠ .null
  triggers : ∃ items, Object.member? ms "triggers" = some (.arr items) ∧
    List.Forall₂ (fun u t => Trigger.codec.decode entityPlace u.toTree = .ok t) items w.triggers
  actions : ∃ items, Object.member? ms "actions" = some (.arr items) ∧
    List.Forall₂ (fun u a => Action.codec.decode entityPlace u.toTree = .ok a) items w.actions

theorem Workflow.readFrom_of_ofValue {doc : Value} {w : Workflow}
    (h : Workflow.ofValue doc = .ok w) : ∃ ms, doc = .obj ms ∧ w.ReadFrom ms := by
  obtain ⟨ms, rfl⟩ := Record.obj_of_decode_eq_ok rfl h
  have inside : (Place.inner ⟨.value, 0⟩).origin ≠ .text := by decide
  refine ⟨ms, rfl, Record.decode_obj_gives (Q := Workflow.ReadFrom ms) (by decide) h
    (.seq (.seq (.seq (.seq (.seq (.seq (.map fun i id read => ?_)
      (field_gives_present rfl fun _ _ => nofun)) (field_list_gives rfl inside))
      (field_list_gives rfl inside)) .any) .any) .any)⟩
  have named := field_gives_present rfl string_solid i id read
  intro version present triggers readTriggers actions readActions
  intros
  exact ⟨named, present, readTriggers, readActions⟩

/-- What a document lists of a kind is read as what the workflow has of it. -/
theorem Workflow.ReadFrom.part {ms : Object} {w : Workflow} (parts : w.ReadFrom ms) (k : EntryKind) :
    ∃ items, Object.member? ms k.list = some (.arr items) ∧
      List.Forall₂ (fun u x => k.codec.decode entityPlace u.toTree = .ok x) items (k.parts w) := by
  cases k with
  | trigger => exact parts.triggers
  | action => exact parts.actions

/-- What holds of the one list item by item holds of the other. -/
theorem forall_mem_iff_of_forall₂ {R : α → β → Prop} {P : α → Prop} {Q : β → Prop} {xs : List α}
    {ys : List β} (h : List.Forall₂ R xs ys) (same : ∀ x y, R x y → (P x ↔ Q y)) :
    (∀ x ∈ xs, P x) ↔ ∀ y ∈ ys, Q y := by
  induction h with
  | nil => simp
  | cons hr _ ih => simp [same _ _ hr, ih]

/-- Lists that agree item by item do so with the items numbered. -/
theorem forall₂_zipIdx {R : α → β → Prop} {xs : List α} {ys : List β} (h : List.Forall₂ R xs ys)
    (n : Nat) : List.Forall₂ (fun x y => R x.1 y.1 ∧ x.2 = y.2) (xs.zipIdx n) (ys.zipIdx n) := by
  induction h generalizing n with
  | nil => exact .nil
  | cons hr _ ih => exact .cons ⟨hr, rfl⟩ (ih (n + 1))

namespace Workflow

/-- The paths of the triggers and actions, each with whether there is an exec block. -/
def equipment (w : Workflow) : List (String × Bool) :=
  w.triggers.zipIdx.map (fun x => (indexed "triggers" x.2, x.1.exec.isSome))
    ++ w.actions.zipIdx.map fun x => (indexed "actions" x.2, x.1.exec.isSome)

theorem runnable_iff {w : Workflow} : w.Runnable ↔ ∀ x ∈ w.equipment, x.2 = true := by
  rw [equipment, List.forall_mem_append, List.forall_mem_map, List.forall_mem_map,
    forall_mem_zipIdx_fst (P := fun t : Trigger => t.exec.isSome = true),
    forall_mem_zipIdx_fst (P := fun a : Action => a.exec.isSome = true)]
  exact ⟨fun h => ⟨h.triggers, h.actions⟩, fun h => ⟨h.1, h.2⟩⟩

variable {doc : Value} {w : Workflow} (read : Workflow.ofValue doc = .ok w)
include read

/-- A document that is read as a workflow has every field that is asked for. -/
theorem required_of_ofValue : requiredFields.all (Path.isPresent doc) = true := by
  obtain ⟨ms, rfl, parts⟩ := readFrom_of_ofValue read
  obtain ⟨_, triggers, -⟩ := parts.triggers
  obtain ⟨_, actions, -⟩ := parts.actions
  rw [requiredFields]
  simp only [List.all_cons, List.all_nil, Bool.and_true, Bool.and_eq_true]
  exact ⟨Path.isPresent_of_member? rfl (by decide) parts.id,
    Path.isPresent_of_member? rfl (by decide) parts.version,
    Path.isPresent_of_member? rfl (by decide) ⟨_, triggers, by simp⟩,
    Path.isPresent_of_member? rfl (by decide) ⟨_, actions, by simp⟩⟩

/-- Its triggers and actions have local ids, and exec blocks where the workflow has them. -/
theorem entities_of_ofValue :
    List.Forall₂ (fun e x => e.1 = x.1 ∧ Path.isPresent e.2 "local_id" = true ∧
      Lowerer.hasExec e.2 = x.2) (entities doc) w.equipment := by
  obtain ⟨ms, rfl, parts⟩ := readFrom_of_ofValue read
  have listed (k : EntryKind) : List.Forall₂ (fun e x => e.1 = x.1 ∧ Path.isPresent e.2 "local_id" = true ∧
      Lowerer.hasExec e.2 = x.2) (entitiesOf (.obj ms) k.list)
      ((k.parts w).zipIdx.map fun x => (indexed k.list x.2, (k.exec? x.1).isSome)) := by
    obtain ⟨items, there, each⟩ := parts.part k
    rw [entitiesOf, Value.member?, there]
    simp only [List.forall₂_map_left_iff, List.forall₂_map_right_iff]
    refine (forall₂_zipIdx each 0).imp fun x y agree => ⟨by rw [agree.2], ?_⟩
    exact k.validates_of_decode (by decide) agree.1
  rw [entities, entityLists, List.flatMap_cons, List.flatMap_singleton, equipment]
  exact List.rel_append (listed .trigger) (listed .action)

end Workflow

namespace Lowerer

/-- A document passes validation and reads as a workflow. -/
structure Accepts (executable : Value) (w : Workflow) : Prop where
  valid : (validate executable).value = true
  read : Workflow.ofValue executable = .ok w

/-- A document is accepted just if it reads as a workflow in which everything can be run. -/
theorem accepts_iff {executable : Value} {w : Workflow} :
    Accepts executable w ↔ Workflow.ofValue executable = .ok w ∧ w.Runnable := by
  suffices same : Workflow.ofValue executable = .ok w →
      ((validate executable).value = true ↔ w.Runnable) from
    ⟨fun h => ⟨h.read, (same h.read).mp h.valid⟩, fun h => ⟨(same h.1).mpr h.2, h.1⟩⟩
  intro read
  rw [value_validate, Workflow.required_of_ofValue read, Bool.true_and, List.all_eq_true,
    Workflow.runnable_iff]
  refine forall_mem_iff_of_forall₂ (Workflow.entities_of_ofValue read) fun e x agree => ?_
  rw [entityIsFine, agree.2.1, agree.2.2, Bool.true_and]

/-- An executable has an exec block wherever one is needed. -/
theorem Accepts.runnable {executable : Value} {w : Workflow} (h : Accepts executable w) :
    w.Runnable := (accepts_iff.mp h).2

end Lowerer

end Flowgraph
