import Flowgraph.Proofs.Json.Trails
import Flowgraph.Proofs.Placeholder
import Mathlib.Data.List.Forall2

/-! Answers filled into a whole document. The texts are filled in where they stand; everything else, the keys of
    objects included, stays as it is. The answers that count are those to the keys of the tokens in the texts, so
    whoever sees the result learns nothing about any other answer. -/

namespace Flowgraph.Placeholder

open Json

/-- What becomes of a value when answers are filled in: a text is filled in, a list keeps its length, an object
    its keys in their order, and all else is left as it is. -/
inductive Becomes (answers : Object) : Value → Value → Prop where
  | null : Becomes answers .null .null
  | bool (b : Bool) : Becomes answers (.bool b) (.bool b)
  | num (n : Number) : Becomes answers (.num n) (.num n)
  | str (s : String) : Becomes answers (.str s) (.str (render s answers))
  | arr {items items' : List Value} (long : items'.length = items.length) :
      Becomes answers (.arr items) (.arr items')
  | obj {members members' : List (String × Value)}
      (keyed : members'.map Prod.fst = members.map Prod.fst) :
      Becomes answers (.obj members) (.obj members')

theorem becomes_apply (answers : Object) (v : Value) : Becomes answers v (apply answers v) := by
  cases v with
  | null => exact .null
  | bool b => exact .bool b
  | num n => exact .num n
  | str s =>
    rw [apply_str]
    exact .str s
  | arr items =>
    rw [apply, applyItems_eq_map]
    exact .arr (List.length_map _)
  | obj members =>
    rw [apply_obj, Object.mapValues]
    exact .obj (by simp)

/-- Filling in answers leads to no new spots and away from none, and fills in what stands at each. -/
theorem spots_apply (answers : Object) (v : Value) :
    (apply answers v).spots = v.spots.map fun x => (x.1, apply answers x.2) := by
  have deeper (step : Step) {v : Value}
      (ih : (apply answers v).spots = v.spots.map fun x => (x.1, apply answers x.2)) :
      (apply answers v).spots.map step.into
        = (v.spots.map step.into).map fun x => (x.1, apply answers x.2) := by
    rw [ih, List.map_map, List.map_map]
    rfl
  induction v using Value.induction with
  | null | bool _ | num _ | str _ => rfl
  | arr items ih =>
    rw [Value.spots, Value.spots, List.map_cons]
    refine congrArg _ ?_
    rw [apply, applyItems_eq_map, Value.inside_arr, Value.inside_arr, List.zipIdx_map, List.flatMap_map,
      List.map_flatMap]
    refine List.flatMap_congr fun x mem => ?_
    exact deeper (.item x.2) (ih x.1 (List.fst_mem_of_mem_zipIdx mem))
  | obj members ih =>
    rw [Value.spots, Value.spots, List.map_cons]
    refine congrArg _ ?_
    rw [apply_obj, Object.mapValues, Value.inside_obj, Value.inside_obj, List.flatMap_map, List.map_flatMap]
    exact List.flatMap_congr fun m mem => deeper (.member m.1) (ih m mem)

/-- Both answer the keys of all tokens in the texts of a document alike. -/
def AgreeOn (doc : Value) (answers others : Object) : Prop :=
  ∀ x ∈ doc.texts, ∀ key ∈ keys x.2, answers.member? key = others.member? key

instance (doc : Value) (answers others : Object) : Decidable (AgreeOn doc answers others) :=
  inferInstanceAs (Decidable (∀ x ∈ doc.texts, ∀ key ∈ keys x.2, answers.member? key = others.member? key))

section
variable {answers others : Object}

theorem AgreeOn.item {items : List Value} (agree : AgreeOn (.arr items) answers others) {v : Value}
    (mem : v ∈ items) : AgreeOn v answers others := by
  obtain ⟨i, number⟩ := List.mem_iff_getElem?.mp mem
  intro x there
  refine agree (.item i :: x.1, x.2) ?_
  rw [Value.texts_arr, Value.insideItems_eq, List.filterMap_flatMap, List.mem_flatMap]
  refine ⟨(v, i), List.mem_zipIdx_iff_getElem?.mpr number, ?_⟩
  rw [Value.filterMap_spotText?_into]
  exact List.mem_map_of_mem there

theorem AgreeOn.member {members : List (String × Value)} (agree : AgreeOn (.obj members) answers others)
    {m : String × Value} (mem : m ∈ members) : AgreeOn m.2 answers others := by
  intro x there
  refine agree (.member m.1 :: x.1, x.2) ?_
  rw [Value.texts_obj, Value.insideMembers_eq, List.filterMap_flatMap, List.mem_flatMap]
  refine ⟨m, mem, ?_⟩
  rw [Value.filterMap_spotText?_into]
  exact List.mem_map_of_mem there

/-- Answers that agree on the tokens of a document fill it in alike. -/
theorem apply_congr {doc : Value} (agree : AgreeOn doc answers others) :
    apply answers doc = apply others doc := by
  induction doc using Value.induction with
  | null | bool _ | num _ => rfl
  | str s =>
    rw [apply_str, apply_str, render_congr (agree ([], s) List.mem_cons_self)]
  | arr items ih =>
    rw [apply, apply, applyItems_eq_map, applyItems_eq_map]
    exact congrArg _ (List.map_congr_left fun v mem => ih v mem (agree.item mem))
  | obj members ih =>
    rw [apply_obj, apply_obj]
    refine congrArg _ (List.map_congr_left fun m mem => ?_)
    rw [ih m mem (agree.member mem)]

end

/-- A document that answers are filled into has the same spots as before, in the same order, and at each of them
    what becomes of what stood there. It is the same for any answers that agree on the tokens of its texts. -/
theorem apply_fills_in_texts_alone (doc : Value) (answers : Object) :
    List.Forall₂ (fun x y => y.1 = x.1 ∧ Becomes answers x.2 y.2) doc.spots (apply answers doc).spots ∧
      ∀ others, AgreeOn doc answers others → apply answers doc = apply others doc := by
  refine ⟨?_, fun others agree => apply_congr agree⟩
  rw [spots_apply, List.forall₂_map_right_iff, List.forall₂_same]
  exact fun x _ => ⟨rfl, becomes_apply answers x.2⟩

/-- A document with a token in a key, one inside of another opening, and a text with braces but no token. -/
def letter : Value :=
  .obj [("\x7b\x7bname\x7d\x7d", .arr [.str "Dear \x7b\x7bname\x7d\x7d,", .int 3, .null]),
    ("foot", .obj [("sign", .str "\x7b\x7bthe \x7b\x7bme\x7d\x7d"), ("town", .str "\x7b\x7btown")])]

/-- The key and the text without a token stay, and who knows the town or not makes no difference. -/
theorem apply_fills_in_texts_alone_letter :
    AgreeOn letter [("me", .str "author"), ("name", .str "\x7b\x7bme\x7d\x7d"), ("town", .str "Lund")]
        [("me", .str "author"), ("name", .str "\x7b\x7bme\x7d\x7d")] ∧
      apply [("me", .str "author"), ("name", .str "\x7b\x7bme\x7d\x7d"), ("town", .str "Lund")] letter
        = apply [("me", .str "author"), ("name", .str "\x7b\x7bme\x7d\x7d")] letter ∧
      apply [("me", .str "author"), ("name", .str "\x7b\x7bme\x7d\x7d")] letter
        = .obj [("\x7b\x7bname\x7d\x7d", .arr [.str "Dear \x7b\x7bme\x7d\x7d,", .int 3, .null]),
          ("foot", .obj [("sign", .str "\x7b\x7bthe author"), ("town", .str "\x7b\x7btown")])] := by
  have agree : AgreeOn letter
      [("me", .str "author"), ("name", .str "\x7b\x7bme\x7d\x7d"), ("town", .str "Lund")]
      [("me", .str "author"), ("name", .str "\x7b\x7bme\x7d\x7d")] := by decide +kernel
  exact ⟨agree, (apply_fills_in_texts_alone letter _).2 _ agree, by decide +kernel⟩

end Flowgraph.Placeholder
