import Flowgraph.Proofs.Containment
import Flowgraph.Proofs.Json.Trails
import Flowgraph.Proofs.OpenTokens
import Flowgraph.Proofs.Reports

/-! The hints of a compilation. There is one for each placeholder that is left in a parameter after the answers
    were filled in, in document order. These are the placeholders of the template without an answer, just if
    the answers leave all texts undisturbed. -/

namespace Flowgraph

open Json

namespace Materializer

open Placeholder

/-- The placeholders left in a value that was filled in are those of its texts, each filled in. -/
theorem openPlaceholders_apply (answers : Object) (v : Value) {path : String} (named : path ≠ "") :
    openPlaceholders path (apply answers v) = v.texts.flatMap fun x =>
      (keys (render x.2 answers)).map fun key => (key, Trail.path path x.1) := by
  induction v using Value.induction generalizing path with
  | null | bool _ | num _ => rfl
  | str s =>
    rw [apply_str, openPlaceholders]
    simp [Value.texts, Value.spots, Value.inside, Value.spotText?, Value.text?]
  | arr items ih =>
    rw [apply, openPlaceholders, Value.texts_arr]
    generalize 0 = i
    induction items generalizing i with
    | nil => rfl
    | cons v vs more =>
      have below : indexed path i ≠ "" := by simp [indexed, named]
      rw [applyItems, openInItems, Value.insideItems, List.filterMap_append, List.flatMap_append,
        more (fun u mem => ih u (List.mem_cons_of_mem v mem)), ih v List.mem_cons_self below, ← Value.spots,
        Value.filterMap_spotText?_into, List.flatMap_map]
      rfl
  | obj members ih =>
    rw [apply, openPlaceholders, Value.texts_obj]
    induction members with
    | nil => rfl
    | cons m ms more =>
      obtain ⟨key, v⟩ := m
      have below : path ++ "." ++ key ≠ "" := by simp [named]
      have step : (Step.member key).below path = path ++ "." ++ key := if_neg named
      rw [applyMembers, openInMembers, Value.insideMembers, List.filterMap_append, List.flatMap_append,
        more (fun u mem => ih u (List.mem_cons_of_mem _ mem)), ih _ List.mem_cons_self below, ← Value.spots,
        Value.filterMap_spotText?_into, List.flatMap_map]
      simp only [Trail.path_cons, step]

/-! ### The texts among the parameters -/

/-- A text among the parameters of a trigger or action: the list that this is in, its number there, the field
    of the parameters, and the trail from them to the text. -/
structure ParamText where
  list : String
  entity : Nat
  field : String
  trail : Trail
  text : String

namespace ParamText

/-- The trail to the text from the document. -/
def place (x : ParamText) : Trail := .member x.list :: .item x.entity :: .member x.field :: x.trail

def path (x : ParamText) : String := Trail.path "" x.place

/-- Triggers before actions, then by number, by field as these are listed, and by the place in the field. -/
def Before (x y : ParamText) : Prop :=
  Prod.Lex (· < ·) (Prod.Lex (· < ·) (Prod.Lex (· < ·) Trail.Before))
    (entityLists.idxOf x.list, x.entity, paramFields.idxOf x.field, x.trail)
    (entityLists.idxOf y.list, y.entity, paramFields.idxOf y.field, y.trail)

/-- The hint for a key left in the text. -/
def hint (x : ParamText) (key : String) : String :=
  "Unresolved placeholder '\x7b\x7b" ++ key ++ "\x7d\x7d' at " ++ x.path

theorem path_eq (x : ParamText) :
    x.path = Trail.path (indexed x.list x.entity ++ "." ++ x.field) x.trail := by
  have named : indexed x.list x.entity ≠ "" := by simp [indexed]
  have step : (Step.member x.field).below (indexed x.list x.entity)
      = indexed x.list x.entity ++ "." ++ x.field := if_neg named
  rw [← step]
  rfl

theorem hint_injective (x : ParamText) : Function.Injective x.hint := by
  intro key key' same
  unfold hint at same
  have front := (String.append_left_inj _).mp ((String.append_left_inj _).mp same)
  exact (String.append_right_inj _).mp front

end ParamText

/-- The texts in one field of an item with its number in a list. -/
def fieldTexts (list : String) (item : Value × Nat) (field : String) : List ParamText :=
  (item.1.member? field).toList.flatMap fun params =>
    params.texts.map fun x => ⟨list, item.2, field, x.1, x.2⟩

/-- The texts among the parameters of the triggers and actions of a document. -/
def paramTexts (doc : Value) : List ParamText :=
  entityLists.flatMap fun list => (doc.itemsAt list).zipIdx.flatMap fun item =>
    paramFields.flatMap (fieldTexts list item)

theorem mem_fieldTexts {list field : String} {item : Value × Nat} {x : ParamText} :
    x ∈ fieldTexts list item field ↔ x.list = list ∧ x.entity = item.2 ∧ x.field = field ∧
      ∃ params, item.1.member? field = some params ∧ (x.trail, x.text) ∈ params.texts := by
  simp only [fieldTexts, List.mem_flatMap, Option.mem_toList, List.mem_map]
  constructor
  · rintro ⟨params, there, y, mem, rfl⟩
    exact ⟨rfl, rfl, rfl, params, there, mem⟩
  · rintro ⟨rfl, number, rfl, params, there, mem⟩
    exact ⟨params, there, _, mem, by rw [← number]⟩

theorem getElem?_itemsAt {doc item : Value} {list : String} {i : Nat} :
    (doc.itemsAt list)[i]? = some item ↔
      ∃ u, doc.member? list = some u ∧ u.child? (.item i) = some item := by
  rw [Value.itemsAt_eq]
  cases doc.member? list with
  | none => simp
  | some u => cases u <;> simp [Value.items, Value.child?]

theorem at?_place {doc : Value} {x : ParamText} {w : Value} :
    doc.at? x.place = some w ↔ ∃ item params, (doc.itemsAt x.list)[x.entity]? = some item ∧
      item.member? x.field = some params ∧ params.at? x.trail = some w := by
  simp only [ParamText.place, Value.at?, Option.bind_eq_some_iff, getElem?_itemsAt, Value.child?]
  constructor
  · rintro ⟨u, there, item, number, params, field, leads⟩
    exact ⟨item, params, ⟨u, there, number⟩, field, leads⟩
  · rintro ⟨item, params, ⟨u, there, number⟩, field, leads⟩
    exact ⟨u, there, item, number, params, field, leads⟩

theorem canonical_of_itemsAt {doc item : Value} (canonical : doc.canonical = doc) {list : String}
    (mem : item ∈ doc.itemsAt list) : item.canonical = item := by
  rw [Value.itemsAt_eq] at mem
  cases there : doc.member? list with
  | none => simp [there] at mem
  | some u =>
    have inner := Value.canonical_of_member? canonical there
    rw [there, Option.elim_some] at mem
    cases u with
    | arr items => exact Value.canonical_of_mem inner mem
    | null | bool _ | num _ | str _ | obj _ => cases mem

/-- In a canonical document the texts among the parameters are just those that are found in their places. -/
theorem mem_paramTexts_iff {doc : Value} (canonical : doc.canonical = doc) {x : ParamText} :
    x ∈ paramTexts doc ↔
      x.list ∈ entityLists ∧ x.field ∈ paramFields ∧ doc.at? x.place = some (.str x.text) := by
  simp only [paramTexts, List.mem_flatMap, mem_fieldTexts, at?_place]
  constructor
  · rintro ⟨list, listed, ⟨item, i⟩, mem, field, known, rfl, rfl, rfl, params, there, text⟩
    have stands := canonical_of_itemsAt canonical (List.fst_mem_of_mem_zipIdx mem)
    have inner := Value.canonical_of_member? stands there
    exact ⟨listed, known, item, params, List.mem_zipIdx_iff_getElem?.mp mem, there,
      (Value.mem_texts_iff inner).mp text⟩
  · rintro ⟨listed, known, item, params, number, there, leads⟩
    have stands := canonical_of_itemsAt canonical (List.mem_of_getElem? number)
    have inner := Value.canonical_of_member? stands there
    exact ⟨x.list, listed, (item, x.entity), List.mem_zipIdx_iff_getElem?.mpr number, x.field, known,
      rfl, rfl, rfl, params, there, (Value.mem_texts_iff inner).mpr leads⟩

theorem fieldTexts_pairwise {item : Value × Nat} (canonical : item.1.canonical = item.1) (list : String)
    (field : String) : (fieldTexts list item field).Pairwise ParamText.Before := by
  rw [fieldTexts]
  cases there : item.1.member? field with
  | none => exact .nil
  | some params =>
    rw [Option.toList_some, List.flatMap_singleton, List.pairwise_map]
    refine (Value.texts_pairwise (Value.canonical_of_member? canonical there)).imp fun before => ?_
    exact .right _ (.right _ (.right _ before))

theorem flatMap_fieldTexts_pairwise {item : Value × Nat} (canonical : item.1.canonical = item.1)
    (list : String) : (paramFields.flatMap (fieldTexts list item)).Pairwise ParamText.Before := by
  have fields : paramFields.Pairwise fun f g => paramFields.idxOf f < paramFields.idxOf g := by decide
  rw [List.pairwise_flatMap]
  refine ⟨fun field _ => fieldTexts_pairwise canonical list field, fields.imp fun before x here y there => ?_⟩
  obtain ⟨rfl, number, rfl, -⟩ := mem_fieldTexts.mp here
  obtain ⟨same, number', rfl, -⟩ := mem_fieldTexts.mp there
  rw [ParamText.Before, same, number, number']
  exact .right _ (.right _ (.left _ _ before))

/-- The texts among the parameters of a canonical document are listed in order. -/
theorem paramTexts_pairwise {doc : Value} (canonical : doc.canonical = doc) :
    (paramTexts doc).Pairwise ParamText.Before := by
  have lists : entityLists.Pairwise fun l k => entityLists.idxOf l < entityLists.idxOf k := by decide
  have numbers (list : String) : (doc.itemsAt list).zipIdx.Pairwise fun a b => a.2 < b.2 := by
    rw [← List.pairwise_map (f := Prod.snd), List.zipIdx_map_snd]
    exact List.pairwise_lt_range'
  have origin {list : String} {item : Value × Nat} {x : ParamText}
      (mem : x ∈ paramFields.flatMap (fieldTexts list item)) : x.list = list ∧ x.entity = item.2 := by
    obtain ⟨field, -, mem⟩ := List.mem_flatMap.mp mem
    obtain ⟨same, number, -⟩ := mem_fieldTexts.mp mem
    exact ⟨same, number⟩
  rw [paramTexts, List.pairwise_flatMap]
  refine ⟨fun list _ => ?_, lists.imp fun before x here y there => ?_⟩
  · rw [List.pairwise_flatMap]
    refine ⟨fun item mem => ?_, (numbers list).imp fun before x here y there => ?_⟩
    · exact flatMap_fieldTexts_pairwise (canonical_of_itemsAt canonical (List.fst_mem_of_mem_zipIdx mem)) list
    · rw [ParamText.Before, (origin here).1, (origin there).1, (origin here).2, (origin there).2]
      exact .right _ (.left _ _ before)
  · obtain ⟨item, -, here⟩ := List.mem_flatMap.mp here
    obtain ⟨item', -, there⟩ := List.mem_flatMap.mp there
    rw [ParamText.Before, (origin here).1, (origin there).1]
    exact .left _ _ before

theorem placeholderHints_apply (answers : Object) (doc : Value) :
    placeholderHints (apply answers doc)
      = (paramTexts doc).flatMap fun x => (keys (render x.text answers)).map x.hint := by
  rw [placeholderHints, entities, List.flatMap_assoc, paramTexts, List.flatMap_assoc]
  refine List.flatMap_congr fun list _ => ?_
  rw [entitiesOf_eq, itemsAt_apply, List.zipIdx_map, List.map_map, List.flatMap_map, List.flatMap_assoc]
  refine List.flatMap_congr fun item _ => ?_
  rw [List.flatMap_assoc]
  refine List.flatMap_congr fun field _ => ?_
  simp only [Prod.map, member?_apply, fieldTexts]
  cases item.1.member? field with
  | none => rfl
  | some params =>
    have named : indexed list item.2 ++ "." ++ field ≠ "" := by simp
    simp only [Option.map_some, Option.toList_some, List.flatMap_singleton, id]
    rw [openPlaceholders_apply answers params named, List.map_flatMap, List.flatMap_map]
    refine List.flatMap_congr fun x _ => ?_
    rw [List.map_map]
    refine List.map_congr_left fun key _ => ?_
    unfold ParamText.hint
    rw [Function.comp_apply, ParamText.path_eq]

end Materializer

/-! ### The hints of a compilation -/

namespace Materializer

open Placeholder

theorem hints_prepare (template : Value) (answers : Object) :
    (prepare template answers).log.hints = placeholderHints (apply answers template) := by
  rw [log_prepare]
  exact List.append_nil _

theorem hints_finish (m : Materializer) (w : Workflow) (log : Diagnostics) :
    (m.finish w log).diagnostics.hints = log.hints := by
  simp only [finish]
  split <;> simp [SecretScanner.scan]

/-- All hints of a compilation are those for the placeholders that are left. -/
theorem hints_compile (m : Materializer) {template : Value} (c : Context)
    (valid : (validate template).value = true) :
    (m.compile template c).diagnostics.hints = placeholderHints (apply c.answers template) := by
  cases read : Workflow.ofValue (prepare template c.answers).value with
  | error cause =>
    simp [compile, valid, read, Diagnostics.addError, (terse_validate template).hints, hints_prepare]
  | ok w =>
    rw [compile_of_read m valid read, hints_finish]
    simp [(terse_validate template).hints, hints_prepare, (c.terse_resolve w).hints]

/-! ### What the hints announce -/

/-- The hints for the tokens of a text that have no answer. -/
def ParamText.announced (answers : Object) (x : ParamText) : List String :=
  ((keys x.text).filter (unanswered answers)).map x.hint

theorem length_flatMap_le {f g : α → List β} {xs : List α}
    (fewer : ∀ x ∈ xs, (g x).length ≤ (f x).length) : (xs.flatMap g).length ≤ (xs.flatMap f).length := by
  induction xs with
  | nil => exact Nat.le_refl _
  | cons x xs ih =>
    obtain ⟨here, later⟩ := List.forall_mem_cons.mp fewer
    rw [List.flatMap_cons, List.flatMap_cons, List.length_append, List.length_append]
    exact Nat.add_le_add here (ih later)

/-- Rows of lists of which none is shorter than that of the other row are alike just if all lists are. -/
theorem flatMap_eq_flatMap_iff {f g : α → List β} {xs : List α}
    (fewer : ∀ x ∈ xs, (g x).length ≤ (f x).length) :
    xs.flatMap f = xs.flatMap g ↔ ∀ x ∈ xs, f x = g x := by
  induction xs with
  | nil => simp
  | cons x xs ih =>
    obtain ⟨here, later⟩ := List.forall_mem_cons.mp fewer
    have less := length_flatMap_le later
    rw [List.flatMap_cons, List.flatMap_cons, List.forall_mem_cons, ← ih later]
    refine ⟨fun alike => ?_, fun alike => by rw [alike.1, alike.2]⟩
    have long := congrArg List.length alike
    rw [List.length_append, List.length_append] at long
    exact List.append_inj alike (by omega)

/-- The hints of a compilation are as many at least as there are tokens without an answer among the parameters
    of the template. They are just for these, in document order, if all texts are left undisturbed by the
    answers. -/
theorem hints_announce_iff (m : Materializer) (c : Context) {template : Value}
    (valid : (validate template).value = true) :
    ((paramTexts template).flatMap (·.announced c.answers)).length
        ≤ (m.compile template c).diagnostics.hints.length ∧
      ((m.compile template c).diagnostics.hints = (paramTexts template).flatMap (·.announced c.answers) ↔
        ∀ x ∈ paramTexts template, Undisturbed c.answers x.text) ∧
      (template.canonical = template →
        (paramTexts template).Pairwise ParamText.Before ∧
        ∀ x : ParamText, x ∈ paramTexts template ↔
          x.list ∈ entityLists ∧ x.field ∈ paramFields ∧ template.at? x.place = some (.str x.text)) := by
  rw [hints_compile m c valid, placeholderHints_apply]
  have fewer (x : ParamText) (_ : x ∈ paramTexts template) :
      (x.announced c.answers).length ≤ ((keys (render x.text c.answers)).map x.hint).length := by
    simpa [ParamText.announced] using (keys_render c.answers x.text).1
  have each (x : ParamText) : (keys (render x.text c.answers)).map x.hint = x.announced c.answers ↔
      Undisturbed c.answers x.text := by
    rw [← (keys_render c.answers x.text).2, ParamText.announced,
      List.map_inj_right fun _ _ same => x.hint_injective same]
  refine ⟨length_flatMap_le fewer, ?_,
    fun canonical => ⟨paramTexts_pairwise canonical, fun x => mem_paramTexts_iff canonical⟩⟩
  rw [flatMap_eq_flatMap_iff fewer]
  exact forall₂_congr fun x _ => each x

/-- A template with a trigger that greets. -/
def greeting (text : String) : Value :=
  .obj [("actions", .arr []),
    ("triggers", .arr [.obj [("configuration", .obj [("greeting", .str text)]), ("local_id", .str "t")]]),
    ("version", .int 1), ("workflow_id", .str "w")]

/-- An answer that ends in two braces does not get in the way of the token behind it. -/
theorem hints_announce_iff_greeting :
    (validate (greeting "Dear \x7b\x7bname\x7d\x7d\x7b\x7bday\x7d\x7d")).value = true ∧
      (compile ⟨.none, .standard⟩ (greeting "Dear \x7b\x7bname\x7d\x7d\x7b\x7bday\x7d\x7d")
        ⟨.build ⟨[]⟩, none, [], [("name", .str "you\x7b\x7b")], .none⟩).diagnostics.hints
        = ["Unresolved placeholder '\x7b\x7bday\x7d\x7d' at triggers[0].configuration.greeting"] := by
  have valid : (validate (greeting "Dear \x7b\x7bname\x7d\x7d\x7b\x7bday\x7d\x7d")).value = true := by
    decide +kernel
  refine ⟨valid, ((hints_announce_iff ⟨.none, .standard⟩
    ⟨.build ⟨[]⟩, none, [], [("name", .str "you\x7b\x7b")], .none⟩ valid).2.1.mpr ?_).trans ?_⟩
  · decide +kernel
  · decide +kernel

/-- An answer that looks like a token is reported as one, though the template has no such token and its key
    has an answer too. -/
theorem hint_for_text_of_answer :
    (paramTexts (greeting "\x7b\x7bopening\x7d\x7d")).flatMap
        (·.announced [("name", .str "you"), ("opening", .str "Dear \x7b\x7bname\x7d\x7d")]) = [] ∧
      (compile ⟨.none, .standard⟩ (greeting "\x7b\x7bopening\x7d\x7d")
        ⟨.build ⟨[]⟩, none, [], [("name", .str "you"), ("opening", .str "Dear \x7b\x7bname\x7d\x7d")],
          .none⟩).diagnostics.hints
        = ["Unresolved placeholder '\x7b\x7bname\x7d\x7d' at triggers[0].configuration.greeting"] := by
  refine ⟨by decide +kernel, ?_⟩
  rw [hints_compile _ _ (by decide +kernel)]
  decide +kernel

end Materializer

end Flowgraph
