import Flowgraph.Path
import Flowgraph.Proofs.Json.Objects

/-! What a dotted path leads to after something was set. The path itself leads to what was set last, and a path
    that parts from it leads to what it led to before, as long as there are objects up to the parting: setting
    goes through objects alone, and where it finds a list or a scalar, or nothing, it starts an object of its
    own, in which no other path leads anywhere. -/

namespace Flowgraph.Path

open Json

theorem setAlong_obj (v : Value) (o : Object) (s : String) (ss : List String) :
    setAlong v (.obj o) (s :: ss)
      = .obj (o.put s (setAlong v ((o.member? s).getD (.obj [])) ss)) := rfl

/-- What is set along segments stands in an object that has the members of what was there. -/
theorem exists_setAlong (v doc : Value) (s : String) (ss : List String) :
    ∃ o : Object, (∀ key, o.member? key = doc.member? key) ∧ setAlong v doc (s :: ss)
      = .obj (o.put s (setAlong v ((doc.member? s).getD (.obj [])) ss)) := by
  cases doc with
  | obj o => exact ⟨o, fun _ => rfl, rfl⟩
  | null | bool _ | num _ | str _ | arr _ => exact ⟨[], fun _ => rfl, rfl⟩

theorem walk?_append (v : Value) (ss ts : List String) :
    walk? v (ss ++ ts) = (walk? v ss).bind (walk? · ts) := by
  induction ss generalizing v with
  | nil => rfl
  | cons s ss ih =>
    rw [List.cons_append, walk?, walk?, Option.bind_assoc]
    exact Option.bind_congr fun w _ => ih w

/-! ### Along the same segments -/

/-- The segments lead to what was set along them. -/
theorem walk?_setAlong (v doc : Value) (segs : List String) :
    walk? (setAlong v doc segs) segs = some v := by
  induction segs generalizing doc with
  | nil => rfl
  | cons s ss ih =>
    obtain ⟨o, -, set⟩ := exists_setAlong v doc s ss
    rw [set, walk?, child?, Object.member?_put, if_pos rfl]
    exact ih _

/-- What is set later replaces what was set before. -/
theorem setAlong_setAlong (v w doc : Value) (segs : List String) :
    setAlong w (setAlong v doc segs) segs = setAlong w doc segs := by
  induction segs generalizing doc with
  | nil => rfl
  | cons s ss ih =>
    simp only [setAlong, Object.member?_put, if_pos, Option.getD_some, ih, Object.put_put]

/-! ### Along segments that part -/

/-- The two agree in the first `k` segments, and each has another one behind these. -/
structure PartAt (k : Nat) (ps qs : List String) : Prop where
  along : ps.take k = qs.take k
  apart : ∃ s t, ps[k]? = some s ∧ qs[k]? = some t ∧ s ≠ t

/-- The value and all that the segments lead to, one after the other, are objects. -/
def ObjectsAlong (doc : Value) (segs : List String) : Prop :=
  ∀ j ≤ segs.length, ∃ o, walk? doc (segs.take j) = some (.obj o)

theorem PartAt.exists_eq {k : Nat} {ps qs : List String} (h : PartAt k ps qs) :
    ∃ s t ps' qs', s ≠ t ∧ ps = ps.take k ++ s :: ps' ∧ qs = ps.take k ++ t :: qs' := by
  obtain ⟨s, t, here, there, other⟩ := h.apart
  obtain ⟨left, rfl⟩ := List.getElem?_eq_some_iff.mp here
  obtain ⟨right, rfl⟩ := List.getElem?_eq_some_iff.mp there
  refine ⟨_, _, ps.drop (k + 1), qs.drop (k + 1), other, ?_, ?_⟩
  · rw [← List.drop_eq_getElem_cons left, List.take_append_drop]
  · rw [h.along, ← List.drop_eq_getElem_cons right, List.take_append_drop]

theorem objectsAlong_nil {doc : Value} : ObjectsAlong doc [] ↔ ∃ o, doc = .obj o := by
  constructor
  · intro h
    obtain ⟨o, there⟩ := h 0 (Nat.le_refl 0)
    exact ⟨o, Option.some.inj there⟩
  · rintro ⟨o, rfl⟩ j -
    exact ⟨o, by rw [List.take_nil, walk?]⟩

theorem objectsAlong_cons {doc : Value} {s : String} {ss : List String} :
    ObjectsAlong doc (s :: ss)
      ↔ ∃ (o : Object) (c : Value), doc = .obj o ∧ o.member? s = some c ∧ ObjectsAlong c ss := by
  constructor
  · intro h
    obtain ⟨o, there⟩ := h 0 (Nat.zero_le _)
    cases there
    obtain ⟨o', there⟩ := h 1 (Nat.succ_le_succ (Nat.zero_le _))
    obtain ⟨c, member, -⟩ := Option.bind_eq_some_iff.mp there
    refine ⟨o, c, rfl, member, fun j short => ?_⟩
    obtain ⟨o', there⟩ := h (j + 1) (Nat.succ_le_succ short)
    rw [List.take_succ_cons, walk?, child?, show Object.member? o s = some c from member] at there
    exact ⟨o', there⟩
  · rintro ⟨o, c, rfl, member, further⟩ j short
    cases j with
    | zero => exact ⟨o, rfl⟩
    | succ j =>
      obtain ⟨o', there⟩ := further j (Nat.le_of_succ_le_succ short)
      refine ⟨o', ?_⟩
      rw [List.take_succ_cons, walk?, child?, member]
      exact there

/-- Nothing is in an object without members. -/
theorem walk?_empty (ss : List String) (t : String) (ts : List String) :
    walk? (.obj []) (ss ++ t :: ts) = none := by
  cases ss <;> rfl

/-- What other segments lead to is what they led to before, if there are objects as far as they go along, and
    nothing otherwise. -/
theorem walk?_setAlong_of_ne (v doc : Value) (ss : List String) {s t : String} (other : s ≠ t)
    (ps qs : List String) :
    (ObjectsAlong doc ss →
        walk? (setAlong v doc (ss ++ s :: ps)) (ss ++ t :: qs) = walk? doc (ss ++ t :: qs)) ∧
      (¬ObjectsAlong doc ss → walk? (setAlong v doc (ss ++ s :: ps)) (ss ++ t :: qs) = none) := by
  induction ss generalizing doc with
  | nil =>
    obtain ⟨o, members, set⟩ := exists_setAlong v doc s ps
    rw [List.nil_append, List.nil_append, set, walk?, child?, Object.member?_put, if_neg other.symm,
      members, objectsAlong_nil]
    constructor
    · rintro ⟨o, rfl⟩
      rfl
    · intro none
      cases doc with
      | obj o => exact absurd ⟨o, rfl⟩ none
      | null | bool _ | num _ | str _ | arr _ => rfl
  | cons c ss ih =>
    obtain ⟨o, members, set⟩ := exists_setAlong v doc c (ss ++ s :: ps)
    rw [List.cons_append, List.cons_append, set, walk?, child?, Object.member?_put, if_pos rfl,
      Option.bind_some, objectsAlong_cons]
    constructor
    · rintro ⟨o, d, rfl, member, further⟩
      rw [Value.member?, member, Option.getD_some, (ih d).1 further, walk?, child?, member, Option.bind_some]
    · intro none
      cases member : doc.member? c with
      | none =>
        -- The object that is started here is empty, whether or not the rest of the segments is looked up in it.
        by_cases further : ObjectsAlong (.obj []) ss
        · rw [Option.getD_none, (ih _).1 further, walk?_empty]
        · exact (ih _).2 further
      | some d =>
        refine (ih d).2 fun further => none ?_
        cases doc with
        | obj o => exact ⟨o, d, rfl, member, further⟩
        | null | bool _ | num _ | str _ | arr _ => cases member

/-! ### Paths -/

theorem get?_of_ne_empty {path : String} (named : path ≠ "") (doc : Value) :
    get? doc path = walk? doc (segments path) := if_neg named

/-- A path leads to what was set last under it, and what was set under it before leaves no trace. Another path
    that parts from it behind `k` segments leads to what it led to before if the document and all that the
    first `k` segments lead to are objects, and to nothing otherwise. -/
theorem get?_after_set (doc v w : Value) {p : String} (named : p ≠ "") :
    get? (set doc p v) p = some v ∧ set (set doc p v) p w = set doc p w ∧
      ∀ q, q ≠ "" → ∀ k, PartAt k (segments p) (segments q) →
        (ObjectsAlong doc ((segments p).take k) → get? (set doc p v) q = get? doc q) ∧
        (¬ObjectsAlong doc ((segments p).take k) → get? (set doc p v) q = none) := by
  refine ⟨?_, setAlong_setAlong v w doc _, fun q named' k parts => ?_⟩
  · rw [get?_of_ne_empty named]
    exact walk?_setAlong v doc _
  · obtain ⟨s, t, ps, qs, other, left, right⟩ := parts.exists_eq
    have law := walk?_setAlong_of_ne v doc ((segments p).take k) other ps qs
    rwa [← left, ← right, ← get?_of_ne_empty named', ← get?_of_ne_empty named'] at law

/-- A document with a list in it. -/
def shelf : Value := .obj [("a", .obj [("b", .arr [.int 1, .int 2]), ("c", .int 5)])]

/-- A path into the list takes its place, so that the items are gone; what is beside the list stays. -/
theorem get?_after_set_list :
    PartAt 2 (segments "a.b.x") (segments "a.b.0") ∧ PartAt 1 (segments "a.b.x") (segments "a.c") ∧
      get? shelf "a.b.0" = some (.int 1) ∧ get? (set shelf "a.b.x" .null) "a.b.0" = none ∧
      get? (set shelf "a.b.x" .null) "a.c" = some (.int 5) := by
  have law := (get?_after_set shelf .null .null (p := "a.b.x") (by decide)).2.2
  have items : PartAt 2 (segments "a.b.x") (segments "a.b.0") :=
    ⟨by decide +kernel, "x", "0", by decide +kernel, by decide +kernel, by decide⟩
  have beside : PartAt 1 (segments "a.b.x") (segments "a.c") :=
    ⟨by decide +kernel, "b", "c", by decide +kernel, by decide +kernel, by decide⟩
  have first : (segments "a.b.x").take 1 = ["a"] := by decide +kernel
  have second : (segments "a.b.x").take 2 = ["a", "b"] := by decide +kernel
  have list : ¬ObjectsAlong shelf ((segments "a.b.x").take 2) := by
    rw [second, shelf]
    simp [objectsAlong_cons, objectsAlong_nil, Object.member?_cons]
  have object : ObjectsAlong shelf ((segments "a.b.x").take 1) := by
    rw [first, shelf]
    simp [objectsAlong_cons, objectsAlong_nil, Object.member?_cons]
  have kept : get? shelf "a.c" = some (.int 5) := by decide +kernel
  exact ⟨items, beside, by decide +kernel, (law "a.b.0" (by decide) 2 items).2 list,
    ((law "a.c" (by decide) 1 beside).1 object).trans kept⟩

end Flowgraph.Path
