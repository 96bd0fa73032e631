import Flowgraph.Proofs.Json.Objects

/-! What is inside of a value, and where. A trail leads from a value to one inside of it, step by step, and every
    trail of a canonical value is met once: a value before what is inside of it, the items of a list in order,
    the members of an object by their keys. Scans of documents are scans of this list. -/

namespace Flowgraph.Json

/-! ### Induction -/

/-- What holds of a list or an object if it holds of everything in it, and of all other values, holds of every
    value. -/
@[elab_as_elim]
theorem Value.induction {P : Value → Prop} (null : P .null) (bool : ∀ b, P (.bool b))
    (num : ∀ n, P (.num n)) (str : ∀ s, P (.str s))
    (arr : ∀ items, (∀ v ∈ items, P v) → P (.arr items))
    (obj : ∀ members, (∀ m ∈ members, P m.2) → P (.obj members)) (v : Value) : P v :=
  @Value.rec P (fun items => ∀ v ∈ items, P v) (fun members => ∀ m ∈ members, P m.2) (fun m => P m.2)
    null bool num str arr obj
    (fun _ mem => absurd mem List.not_mem_nil)
    (fun _ _ here later => List.forall_mem_cons.mpr ⟨here, later⟩)
    (fun _ mem => absurd mem List.not_mem_nil)
    (fun _ _ here later => List.forall_mem_cons.mpr ⟨here, later⟩)
    (fun _ _ here => here) v

/-! ### Trails -/

/-- A step into a value: to a member of an object, or to an item of a list. -/
inductive Step where
  | member (key : String)
  | item (i : Nat)
  deriving DecidableEq, Repr

/-- The steps that lead to a value from one that it is inside of. -/
abbrev Trail := List Step

/-- What a step leads to. -/
def Value.child? (v : Value) : Step → Option Value
  | .member key => v.member? key
  | .item i => match v with
    | .arr items => items[i]?
    | _ => none

/-- What a trail leads to. -/
def Value.at? (v : Value) : Trail → Option Value
  | [] => some v
  | step :: trail => (v.child? step).bind (·.at? trail)

theorem Value.at?_append (v : Value) (t u : Trail) : v.at? (t ++ u) = (v.at? t).bind (·.at? u) := by
  induction t generalizing v with
  | nil => rfl
  | cons step t ih =>
    rw [List.cons_append, at?, at?, Option.bind_assoc]
    exact Option.bind_congr fun w _ => ih w

/-- Which of two steps from one value comes first: members by their keys, items by their numbers. -/
def Step.Before : Step → Step → Prop
  | .member k, .member l => k < l
  | .item i, .item j => i < j
  | _, _ => False

/-- Document order: a value before what is inside of it, and otherwise as the first steps that differ. -/
def Trail.Before (t u : Trail) : Prop := List.Lex Step.Before t u

/-- The path that a step leads to from a path: a key stands behind a dot, unless the path is still empty, and a
    number in brackets. -/
def Step.below (path : String) : Step → String
  | .member key => if path = "" then key else path ++ "." ++ key
  | .item i => path ++ "[" ++ toString i ++ "]"

/-- The path that a trail leads to from a path. -/
def Trail.path (base : String) (t : Trail) : String := t.foldl Step.below base

@[simp] theorem Trail.path_nil (base : String) : Trail.path base [] = base := rfl

@[simp] theorem Trail.path_cons (base : String) (step : Step) (t : Trail) :
    Trail.path base (step :: t) = Trail.path (step.below base) t := rfl

/-! ### Everything inside of a value -/

/-- What a value holds is one step further off from what the value is inside of. -/
def Step.into (step : Step) (spot : Trail × Value) : Trail × Value := (step :: spot.1, spot.2)

namespace Value

mutual

/-- Everything inside of a value, with the trail to it, in document order. -/
def inside : Value → List (Trail × Value)
  | .arr items => insideItems 0 items
  | .obj members => insideMembers members
  | .null | .bool _ | .num _ | .str _ => []

def insideItems (i : Nat) : List Value → List (Trail × Value)
  | [] => []
  | v :: vs => (([], v) :: v.inside).map (Step.item i).into ++ insideItems (i + 1) vs

def insideMembers : List (String × Value) → List (Trail × Value)
  | [] => []
  | (k, v) :: ms => (([], v) :: v.inside).map (Step.member k).into ++ insideMembers ms

end

/-- The value itself and everything inside of it. -/
def spots (v : Value) : List (Trail × Value) := ([], v) :: v.inside

theorem insideItems_eq (i : Nat) (vs : List Value) :
    insideItems i vs = (vs.zipIdx i).flatMap fun x => x.1.spots.map (Step.item x.2).into := by
  induction vs generalizing i with
  | nil => rfl
  | cons v vs ih => rw [insideItems, ih, List.zipIdx_cons, List.flatMap_cons, spots]

theorem insideMembers_eq (ms : List (String × Value)) :
    insideMembers ms = ms.flatMap fun m => m.2.spots.map (Step.member m.1).into := by
  induction ms with
  | nil => rfl
  | cons m ms ih =>
    obtain ⟨k, v⟩ := m
    rw [insideMembers, ih, List.flatMap_cons, spots]

theorem inside_arr (items : List Value) :
    (arr items).inside = items.zipIdx.flatMap fun x => x.1.spots.map (Step.item x.2).into := by
  rw [inside, insideItems_eq]

theorem inside_obj (members : List (String × Value)) :
    (obj members).inside = members.flatMap fun m => m.2.spots.map (Step.member m.1).into := by
  rw [inside, insideMembers_eq]

/-- It takes a step to get inside. -/
theorem ne_nil_of_mem_inside {v : Value} {spot : Trail × Value} (mem : spot ∈ v.inside) : spot.1 ≠ [] := by
  cases v with
  | arr items =>
    rw [inside_arr, List.mem_flatMap] at mem
    obtain ⟨x, -, mem⟩ := mem
    obtain ⟨y, -, rfl⟩ := List.mem_map.mp mem
    exact List.cons_ne_nil _ _
  | obj members =>
    rw [inside_obj, List.mem_flatMap] at mem
    obtain ⟨m, -, mem⟩ := mem
    obtain ⟨y, -, rfl⟩ := List.mem_map.mp mem
    exact List.cons_ne_nil _ _
  | null | bool _ | num _ | str _ => cases mem

/-- In a canonical object a key leads to the member that has it. -/
theorem member?_of_mem {members : List (String × Value)} (canonical : (obj members).canonical = obj members)
    {m : String × Value} (mem : m ∈ members) : (obj members).member? m.1 = some m.2 := by
  have sorted := Object.sorted_of_canonical canonical
  cases there : Object.member? members m.1 with
  | none =>
    obtain ⟨before, behind, rfl⟩ := List.append_of_mem mem
    rw [Object.member?_append, Object.member?_cons, if_pos rfl] at there
    simp at there
  | some w => rw [sorted.eq_of_mem there mem rfl, member?, there]

theorem mem_map_into {step step' : Step} {t : Trail} {w : Value} {spots : List (Trail × Value)} :
    (step :: t, w) ∈ spots.map step'.into ↔ step = step' ∧ (t, w) ∈ spots := by
  constructor
  · intro mem
    obtain ⟨spot, held, same⟩ := List.mem_map.mp mem
    cases same
    exact ⟨rfl, held⟩
  · rintro ⟨rfl, held⟩
    exact List.mem_map.mpr ⟨(t, w), held, rfl⟩

theorem nil_mem_spots {v w : Value} : ([], w) ∈ v.spots ↔ v = w := by
  constructor
  · intro mem
    rcases List.mem_cons.mp mem with same | deeper
    · exact (congrArg Prod.snd same).symm
    · exact absurd rfl (ne_nil_of_mem_inside deeper)
  · rintro rfl
    exact List.mem_cons_self

theorem cons_mem_spots {v w : Value} {step : Step} {t : Trail} :
    (step :: t, w) ∈ v.spots ↔ (step :: t, w) ∈ v.inside := by
  simp [spots]

/-- Of a canonical value, the spots are just what its trails lead to. -/
theorem mem_spots_iff {v : Value} (canonical : v.canonical = v) {t : Trail} {w : Value} :
    (t, w) ∈ v.spots ↔ v.at? t = some w := by
  induction v using Value.induction generalizing t w with
  | null | bool _ | num _ | str _ =>
    cases t with
    | nil => simp [nil_mem_spots, at?]
    | cons step t => cases step <;> simp [spots, inside, at?, child?, member?]
  | arr items ih =>
    cases t with
    | nil => simp [nil_mem_spots, at?]
    | cons step t =>
      rw [cons_mem_spots, inside_arr, List.mem_flatMap, at?, Option.bind_eq_some_iff]
      constructor
      · rintro ⟨x, mem, there⟩
        obtain ⟨rfl, held⟩ := mem_map_into.mp there
        have item : x.1 ∈ items := List.fst_mem_of_mem_zipIdx mem
        exact ⟨x.1, List.mem_zipIdx_iff_getElem?.mp mem,
          (ih x.1 item (canonical_of_mem canonical item)).mp held⟩
      · rintro ⟨u, found, leads⟩
        cases step with
        | member key => cases found
        | item i =>
          have item : u ∈ items := List.mem_of_getElem? found
          exact ⟨(u, i), List.mem_zipIdx_iff_getElem?.mpr found,
            mem_map_into.mpr ⟨rfl, (ih u item (canonical_of_mem canonical item)).mpr leads⟩⟩
  | obj members ih =>
    cases t with
    | nil => simp [nil_mem_spots, at?]
    | cons step t =>
      rw [cons_mem_spots, inside_obj, List.mem_flatMap, at?, Option.bind_eq_some_iff]
      constructor
      · rintro ⟨m, mem, there⟩
        obtain ⟨rfl, held⟩ := mem_map_into.mp there
        have found := member?_of_mem canonical mem
        exact ⟨m.2, found, (ih m mem (canonical_of_member? canonical found)).mp held⟩
      · rintro ⟨u, found, leads⟩
        cases step with
        | item i => cases found
        | member key =>
          have mem : (key, u) ∈ members := Object.exists_mem_of_member? found
          exact ⟨(key, u), mem,
            mem_map_into.mpr ⟨rfl, (ih (key, u) mem (canonical_of_member? canonical found)).mpr leads⟩⟩

/-- The spots of a canonical value are listed in document order, none of them twice. -/
theorem spots_pairwise {v : Value} (canonical : v.canonical = v) :
    v.spots.Pairwise fun x y => Trail.Before x.1 y.1 := by
  have first {v : Value} (rest : v.inside.Pairwise fun x y => Trail.Before x.1 y.1) :
      v.spots.Pairwise fun x y => Trail.Before x.1 y.1 := by
    refine List.pairwise_cons.mpr ⟨fun x mem => ?_, rest⟩
    obtain ⟨step, t, same⟩ := List.exists_cons_of_ne_nil (ne_nil_of_mem_inside mem)
    rw [same]
    exact List.Lex.nil
  have deeper {v : Value} (step : Step) (spots : v.spots.Pairwise fun x y => Trail.Before x.1 y.1) :
      (v.spots.map step.into).Pairwise fun x y => Trail.Before x.1 y.1 := by
    rw [List.pairwise_map]
    exact spots.imp fun before => List.Lex.cons before
  have across {u v : Value} {step step' : Step} (before : step.Before step') :
      ∀ x ∈ u.spots.map step.into, ∀ y ∈ v.spots.map step'.into, Trail.Before x.1 y.1 := by
    intro x hx y hy
    obtain ⟨x, -, rfl⟩ := List.mem_map.mp hx
    obtain ⟨y, -, rfl⟩ := List.mem_map.mp hy
    exact List.Lex.rel before
  induction v using Value.induction with
  | null | bool _ | num _ | str _ => exact List.pairwise_singleton _ _
  | arr items ih =>
    refine first ?_
    rw [inside_arr, List.pairwise_flatMap]
    constructor
    · intro x mem
      have held : x.1 ∈ items := List.fst_mem_of_mem_zipIdx mem
      exact deeper _ (ih x.1 held (canonical_of_mem canonical held))
    · have numbers : (items.zipIdx.map Prod.snd).Pairwise (· < ·) := by
        rw [List.zipIdx_map_snd]
        exact List.pairwise_lt_range'
      exact (List.pairwise_map.mp numbers).imp fun before => across before
  | obj members ih =>
    refine first ?_
    rw [inside_obj, List.pairwise_flatMap]
    constructor
    · intro m mem
      exact deeper _ (ih m mem (canonical_of_member? canonical (member?_of_mem canonical mem)))
    · have keys : (members.map Prod.fst).Pairwise (· < ·) := Object.sorted_of_canonical canonical
      exact (List.pairwise_map.mp keys).imp fun before => across before

/-! ### The texts in a value -/

def text? : Value → Option String
  | .str s => some s
  | _ => none

/-- The text at a spot, if there is one. -/
def spotText? (spot : Trail × Value) : Option (Trail × String) := spot.2.text?.map fun s => (spot.1, s)

/-- The texts in a value, with the trails to them, in document order. -/
def texts (v : Value) : List (Trail × String) := v.spots.filterMap spotText?

theorem filterMap_spotText?_into (step : Step) (v : Value) :
    (v.spots.map step.into).filterMap spotText? = v.texts.map fun x => (step :: x.1, x.2) := by
  rw [texts, List.filterMap_map, List.map_filterMap]
  refine List.filterMap_congr fun spot _ => ?_
  simp [spotText?, Step.into, Function.comp_def]

theorem texts_arr (items : List Value) :
    (arr items).texts = (insideItems 0 items).filterMap spotText? := by
  rw [texts, spots, List.filterMap_cons_none rfl, inside]

theorem texts_obj (members : List (String × Value)) :
    (obj members).texts = (insideMembers members).filterMap spotText? := by
  rw [texts, spots, List.filterMap_cons_none rfl, inside]

/-- In a canonical value the texts are just those that trails lead to. -/
theorem mem_texts_iff {v : Value} (canonical : v.canonical = v) {t : Trail} {s : String} :
    (t, s) ∈ v.texts ↔ v.at? t = some (.str s) := by
  rw [← mem_spots_iff canonical, texts, List.mem_filterMap]
  constructor
  · rintro ⟨⟨t', w⟩, mem, same⟩
    cases w with
    | str s' =>
      cases same
      exact mem
    | null | bool _ | num _ | arr _ | obj _ => cases same
  · intro mem
    exact ⟨_, mem, rfl⟩

theorem texts_pairwise {v : Value} (canonical : v.canonical = v) :
    v.texts.Pairwise fun x y => Trail.Before x.1 y.1 := by
  have place {spot : Trail × Value} {x : Trail × String} (text : spotText? spot = some x) : x.1 = spot.1 := by
    obtain ⟨s, -, rfl⟩ := Option.map_eq_some_iff.mp text
    rfl
  rw [texts, List.pairwise_filterMap]
  refine (spots_pairwise canonical).imp fun before x here y there => ?_
  rwa [place here, place there]

end Value

end Flowgraph.Json
