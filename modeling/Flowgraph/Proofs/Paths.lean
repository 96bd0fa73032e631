import Flowgraph.Proofs.Numeral
import Flowgraph.Workflow
import Std.Data.String.ToNat

/-! Paths in reports. The path of an item tells the number of the item, and paths into different parts of a
    document differ from their first letter on. -/

namespace Flowgraph

/-- One list that is cut at an item in two places: the longer front goes on behind the shorter one with that
    item. -/
theorem cases_of_append_cons {a : α} {xs ys xs' ys' : List α} (h : xs ++ a :: ys = xs' ++ a :: ys') :
    xs = xs' ∨ (∃ zs, xs' = xs ++ a :: zs) ∨ ∃ zs, xs = xs' ++ a :: zs := by
  rcases List.append_eq_append_iff.mp h with ⟨zs, rfl, between⟩ | ⟨zs, rfl, between⟩
  · cases zs with
    | nil => simp
    | cons z zs =>
      cases List.head_eq_of_cons_eq between
      exact .inr (.inl ⟨zs, rfl⟩)
  · cases zs with
    | nil => simp
    | cons z zs =>
      cases List.head_eq_of_cons_eq between
      exact .inr (.inr ⟨zs, rfl⟩)

/-- Lists that go on behind some item, and hold it equally often in front of that, agree up to it and behind
    it. -/
theorem append_cons_inj_of_count [BEq α] [LawfulBEq α] {a : α} {xs ys xs' ys' : List α}
    (often : xs.count a = xs'.count a) (h : xs ++ a :: ys = xs' ++ a :: ys') : xs = xs' ∧ ys = ys' := by
  rcases cases_of_append_cons h with rfl | ⟨zs, rfl⟩ | ⟨zs, rfl⟩
  · exact ⟨rfl, List.tail_eq_of_cons_eq (List.append_cancel_left h)⟩
  · simp at often
  · simp at often

/-- The path of an item ends where its number does. -/
theorem indexed_append_inj {list s t : String} {i j : Nat}
    (h : indexed list i ++ s = indexed list j ++ t) : i = j ∧ s = t := by
  have solid (n : Nat) : ']' ∉ (Nat.repr n).toList := by
    intro mem
    rw [Nat.toList_repr] at mem
    exact absurd (Numeral.isDigit_of_mem_toDigits mem) (by decide)
  have letters : (list ++ "[").toList ++ ((Nat.repr i).toList ++ ']' :: s.toList)
      = (list ++ "[").toList ++ ((Nat.repr j).toList ++ ']' :: t.toList) := by
    have := congrArg String.toList h
    simpa [indexed, String.toList_append] using this
  have never : (Nat.repr i).toList.count ']' = (Nat.repr j).toList.count ']' := by
    rw [List.count_eq_zero_of_not_mem (solid i), List.count_eq_zero_of_not_mem (solid j)]
  obtain ⟨number, rest⟩ := append_cons_inj_of_count never (List.append_cancel_left letters)
  exact ⟨Nat.repr_injective (String.toList_injective number), String.toList_injective rest⟩

theorem getElem?_append_left {a : String} {i : Nat} {x : Char} (h : a.toList[i]? = some x) (s : String) :
    (a ++ s).toList[i]? = some x := by
  obtain ⟨bound, -⟩ := List.getElem?_eq_some_iff.mp h
  rw [String.toList_append, List.getElem?_append_left bound, h]

theorem getElem?_indexed {list : String} {i : Nat} {x : Char} (h : list.toList[i]? = some x) (n : Nat) :
    (indexed list n).toList[i]? = some x :=
  getElem?_append_left (getElem?_append_left (getElem?_append_left h _) _) _

/-- Texts with different letters in one place differ, however they go on. -/
theorem append_ne_of_letter {a b : String} {i : Nat} {x y : Char} (here : a.toList[i]? = some x)
    (there : b.toList[i]? = some y) (other : x ≠ y) (s t : String) : a ++ s ≠ b ++ t := by
  intro same
  have letter := getElem?_append_left here s
  rw [same, getElem?_append_left there] at letter
  exact other (Option.some.inj letter.symm)

end Flowgraph
