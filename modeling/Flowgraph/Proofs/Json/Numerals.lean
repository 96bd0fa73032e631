import Flowgraph.Json.Print
import Flowgraph.Json.Read
import Flowgraph.Proofs.Json.Reading
import Flowgraph.Proofs.Numeral

/-! Numerals in a JSON text. A reader takes a numeral as far as it goes, so what it makes of one does not depend on
    what stands behind it, if that cannot prolong a numeral. The numeral of a whole number that 64 bits hold is
    read as that number. -/

namespace Flowgraph.Json

open Numeral (isDigit isDigit_of_mem_toDigits valueFrom valueFrom_toDigits le_valueFrom)

/-! ### What stands behind -/

/-- What cannot prolong a numeral in front of it. -/
def EndsNumeral (rest : List Char) : Prop :=
  ∀ c ∈ rest.head?, isDigit c = false ∧ c ≠ '.' ∧ c ≠ 'e' ∧ c ≠ 'E'

theorem readPart_of_ne {cs : List Char} (other : ∀ ds, cs = '.' :: ds → False) : readPart cs = .ok ([], cs) := by
  unfold readPart
  split
  · rename_i ds
    exact absurd rfl (other ds)
  · rfl

section
variable {rest : List Char} (ends : EndsNumeral rest)
include ends

/-- Digits in front of what is no digit are found as if nothing stood there. -/
theorem EndsNumeral.digits (cs : List Char) :
    (cs ++ rest).takeWhile isDigit = cs.takeWhile isDigit ∧
      (cs ++ rest).dropWhile isDigit = cs.dropWhile isDigit ++ rest := by
  induction cs with
  | nil =>
    cases rest with
    | nil => exact ⟨rfl, rfl⟩
    | cons c rest => simp [(ends c rfl).1]
  | cons c cs ih => cases digit : isDigit c <;> simp [digit, ih]

theorem readPart_append {cs part left : List Char} (read : readPart cs = .ok (part, left)) :
    readPart (cs ++ rest) = .ok (part, left ++ rest) := by
  cases cs with
  | nil =>
    cases read
    refine readPart_of_ne fun ds front => ?_
    rw [List.nil_append] at front
    exact (ends '.' (by rw [front]; rfl)).2.1 rfl
  | cons c cs =>
    by_cases point : c = '.'
    · subst point
      obtain ⟨taken, left_of⟩ := ends.digits cs
      rw [List.cons_append, readPart, taken, left_of]
      rw [readPart] at read
      split at read
      · cases read
      · rename_i some_there
        cases read
        rw [if_neg some_there]
    · have other (cs ds : List Char) : c :: cs = '.' :: ds → False := fun same => point (List.cons.inj same).1
      rw [readPart_of_ne (other cs)] at read
      cases read
      exact readPart_of_ne (other (cs ++ rest))

theorem readExponent_append {cs : List Char} {e : Bool × List Char} (read : readExponent cs = .ok (e, [])) :
    readExponent (cs ++ rest) = .ok (e, rest) := by
  have row {down : Bool} {ds : List Char} (read : (if (ds.takeWhile isDigit).isEmpty then .error (missingDigit ds)
      else .ok ((down, ds.takeWhile isDigit), ds.dropWhile isDigit) : Except Break _) = .ok (e, [])) :
      (if ((ds ++ rest).takeWhile isDigit).isEmpty then .error (missingDigit (ds ++ rest))
        else .ok ((down, (ds ++ rest).takeWhile isDigit), (ds ++ rest).dropWhile isDigit) : Except Break _)
        = .ok (e, rest) := by
    obtain ⟨taken, left⟩ := ends.digits ds
    rw [taken, left]
    split at read
    · cases read
    · rename_i some_there
      rw [if_neg some_there]
      obtain ⟨rfl, nothing_left⟩ := Prod.mk.inj (Except.ok.inj read)
      rw [nothing_left, List.nil_append]
  cases cs with
  | nil => cases read
  | cons c cs =>
    by_cases minus : c = '-'
    · subst minus
      exact row read
    · by_cases plus : c = '+'
      · subst plus
        exact row read
      · rw [readExponent] at read
        · rw [List.cons_append, readExponent]
          · exact row read
          all_goals simp [minus, plus]
        all_goals simp [minus, plus]

theorem readPower_append {cs : List Char} {e : Option (Bool × List Char)} (read : readPower cs = .ok (e, [])) :
    readPower (cs ++ rest) = .ok (e, rest) := by
  cases cs with
  | nil =>
    cases read
    cases rest with
    | nil => rfl
    | cons c rest =>
      obtain ⟨-, -, lower, upper⟩ := ends c rfl
      simp [readPower, lower, upper]
  | cons m ds =>
    rw [readPower] at read
    split at read
    · rename_i letter
      obtain ⟨⟨x, left⟩, found, same⟩ := map_eq_ok.mp read
      cases same
      rw [List.cons_append, readPower, if_pos letter, readExponent_append ends found]
      rfl
    · cases read

/-- A numeral is read as if nothing stood behind it. -/
theorem readNumeral_append {negative : Bool} {cs : List Char} {p : NumeralParts}
    (read : readNumeral negative cs = .ok (p, [])) : readNumeral negative (cs ++ rest) = .ok (p, rest) := by
  obtain ⟨taken, left⟩ := ends.digits cs
  rw [readNumeral] at read ⊢
  rw [taken, left]
  split at read
  · cases read
  · split at read
    · cases read
    · rename_i some_there plain
      obtain ⟨⟨part, tail⟩, found, read⟩ := bind_eq_ok.mp read
      obtain ⟨⟨e, behind⟩, powered, same⟩ := bind_eq_ok.mp read
      cases same
      rw [if_neg some_there, if_neg plain, readPart_append ends found]
      change (readPower (tail ++ rest) >>= _) = _
      rw [readPower_append ends powered]
      rfl

end

theorem exists_digit_of_readNumeral {negative : Bool} {cs rest : List Char} {p : NumeralParts}
    (read : readNumeral negative cs = .ok (p, rest)) : ∃ c ds, cs = c :: ds ∧ isDigit c = true := by
  rw [readNumeral] at read
  cases cs with
  | nil => cases read
  | cons c ds =>
    refine ⟨c, ds, rfl, ?_⟩
    by_contra other
    simp [other] at read

/-! ### Whole numbers -/

/-- Only zero is written with a zero in front. -/
theorem head?_toDigits {n : Nat} (pos : 0 < n) : (Nat.toDigits 10 n).head? ≠ some '0' := by
  induction n using Nat.strongRecOn with
  | ind n ih =>
    rw [Nat.toDigits_eq_if (by decide)]
    split
    · rename_i small
      have digit : ∀ k : Fin 10, 0 < k.val → [k.val.digitChar].head? ≠ some '0' := by decide
      exact digit ⟨n, small⟩ pos
    · rw [List.head?_append_of_ne_nil _ Nat.toDigits_ne_nil]
      exact ih (n / 10) (by omega) (by omega)

theorem readNumeral_toDigits (negative : Bool) (n : Nat) :
    readNumeral negative (Nat.toDigits 10 n) = .ok (⟨negative, Nat.toDigits 10 n, [], none⟩, []) := by
  obtain ⟨taken, left⟩ := Numeral.takeWhile_digits [] (fun _ => isDigit_of_mem_toDigits (n := n)) rfl
  have some_there : ¬(Nat.toDigits 10 n).isEmpty = true := by simp
  have plain : ¬((Nat.toDigits 10 n).head? = some '0' ∧ 1 < (Nat.toDigits 10 n).length) := by
    rintro ⟨zero, long⟩
    rcases Nat.eq_zero_or_pos n with rfl | pos
    · simp at long
    · exact head?_toDigits pos zero
  rw [List.append_nil] at taken left
  rw [readNumeral, taken, left, if_neg some_there, if_neg plain]
  rfl

/-- Digits are appended for as long as 64 bits hold the number. -/
theorem appendDigits_eq {s : Nat} {cs : List Char} (fits : valueFrom s cs ≤ uint64Max) :
    appendDigits s cs = (valueFrom s cs, cs.length) := by
  induction cs generalizing s with
  | nil => rfl
  | cons c cs ih =>
    have step : valueFrom s (c :: cs) = valueFrom (s * 10 + Numeral.digitValue c) cs := rfl
    rw [step] at fits
    have here := Nat.le_trans (le_valueFrom _ cs) fits
    rw [appendDigits, if_pos here, ih fits, step]
    rfl

theorem appendDigits_toDigits {n : Nat} (fits : n ≤ uint64Max) :
    appendDigits 0 (Nat.toDigits 10 n) = (n, (Nat.toDigits 10 n).length) := by
  have value := valueFrom_toDigits n
  rw [appendDigits_eq (by omega), value]

theorem number_toDigits {n : Nat} (fits : n ≤ uint64Max) :
    NumeralParts.number ⟨false, Nat.toDigits 10 n, [], none⟩ = .ok (.int n) := by
  have digits := appendDigits_toDigits fits
  simp [NumeralParts.number, digits]

theorem number_neg_toDigits {n : Nat} (pos : 0 < n) (fits : n ≤ int64Min.natAbs) :
    NumeralParts.number ⟨true, Nat.toDigits 10 n, [], none⟩ = .ok (.int (-n)) := by
  have digits := appendDigits_toDigits (Nat.le_trans fits (by decide))
  simp [NumeralParts.number, digits, Nat.pos_iff_ne_zero.mp pos, Nat.not_lt.mpr fits]

/-! ### Numbers that are told by their numerals -/

namespace Number

/-- The numeral is read as this number and to its end. -/
def isReadFrom (n : Number) (negative : Bool) (numeral : List Char) : Bool :=
  match readNumeral negative numeral with
  | .ok (p, []) => p.number.toOption = some n
  | _ => false

/-- The numeral that is printed of the number is read as the number. -/
def isLegible (n : Number) : Bool :=
  match n.text.toList with
  | '-' :: cs => n.isReadFrom true cs
  | cs => n.isReadFrom false cs

theorem isReadFrom_iff {n : Number} {negative : Bool} {cs : List Char} : n.isReadFrom negative cs = true ↔
    ∃ p, readNumeral negative cs = .ok (p, []) ∧ p.number = .ok n := by
  rw [isReadFrom]
  split
  · rename_i p found
    have told : decide (p.number.toOption = some n) = true ↔ p.number = .ok n := by
      cases p.number <;> simp [Except.toOption]
    rw [told]
    constructor
    · exact fun same => ⟨p, found, same⟩
    · rintro ⟨q, found', same⟩
      cases found.symm.trans found'
      exact same
  · rename_i other
    constructor
    · exact fun no => nomatch no
    · rintro ⟨p, found, -⟩
      exact absurd found (other p)

/-- A numeral without a sign. -/
theorem isLegible_of_ne {n : Number} (unsigned : ∀ cs, n.text.toList = '-' :: cs → False) :
    n.isLegible = n.isReadFrom false n.text.toList := by
  rw [isLegible]
  split
  · rename_i cs text
    exact absurd text (unsigned cs)
  · rfl

/-- A whole number is told by its numeral if 64 bits hold it. -/
theorem isLegible_int {n : Int} (whole : int64Min ≤ n ∧ n ≤ uint64Max) : (int n).isLegible = true := by
  have least : int64Min = -(int64Min.natAbs : Int) := rfl
  have text : (int n).text.toList = n.repr.toList := rfl
  rcases Int.lt_or_le n 0 with negative | natural
  · obtain ⟨k, rfl⟩ : ∃ k : Nat, n = -(k : Int) := ⟨n.natAbs, by omega⟩
    rw [Int.repr_eq_if, if_neg (by omega), String.toList_append, Nat.toList_repr, Int.neg_neg,
      Int.toNat_natCast] at text
    rw [isLegible, text]
    exact isReadFrom_iff.mpr ⟨_, readNumeral_toDigits true k, number_neg_toDigits (by omega) (by omega)⟩
  · obtain ⟨k, rfl⟩ := Int.eq_ofNat_of_zero_le natural
    rw [Int.repr_eq_if, if_pos natural, Nat.toList_repr, Int.toNat_natCast] at text
    have unsigned (cs : List Char) (front : (int k).text.toList = '-' :: cs) : False := by
      have digit : isDigit '-' = true := isDigit_of_mem_toDigits (n := k) (by rw [← text, front]; simp)
      cases digit
    rw [isLegible_of_ne unsigned, text]
    exact isReadFrom_iff.mpr ⟨_, readNumeral_toDigits false k, number_toDigits (by omega)⟩

-- The reader rounds twice, so some doubles are told by their numerals and some are not.
example : (float (Double.ofInt 2)).isLegible = true := by decide +kernel

example : (Numeral.double "123456789.12345679".toList).toOption.map (fun x => (float x).isLegible) = some false := by
  decide +kernel

end Number

end Flowgraph.Json
