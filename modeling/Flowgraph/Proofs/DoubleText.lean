import Flowgraph.Proofs.NearestDouble
import Flowgraph.Proofs.Numeral

/-! The text of a finite double is read back as the double, so no two finite doubles have one text. It
    has a point or an exponent, so it is never the text of a whole number. -/

namespace Flowgraph

namespace Numeral

/-! ### Rows of digits -/

theorem valueFrom_append (n : Nat) (cs ds : List Char) :
    valueFrom n (cs ++ ds) = valueFrom (valueFrom n cs) ds := List.foldl_append

theorem valueFrom_zeros (n k : Nat) : valueFrom n (List.replicate k '0') = n * tenTo k := by
  induction k generalizing n with
  | zero => exact (Nat.mul_one n).symm
  | succ k ih =>
    calc valueFrom n (List.replicate (k + 1) '0') = valueFrom (n * 10) (List.replicate k '0') := rfl
      _ = n * (tenTo k * 10) := by rw [ih, Nat.mul_assoc, Nat.mul_comm 10]
      _ = n * tenTo (k + 1) := rfl

theorem isDigit_of_mem_zeros {k : Nat} {c : Char} (mem : c ∈ List.replicate k '0') : isDigit c = true := by
  rw [List.eq_of_mem_replicate mem]
  rfl

/-- The number that a row of digits stands for, the first of them in the given place. -/
def valueAt (ds : List Char) (place : Int) : ℚ := valueFrom 0 ds * 10 ^ (place - ds.length + 1)

/-- Zeros at the end of a row change nothing. -/
theorem valueAt_append_zeros (ds : List Char) (k : Nat) (place : Int) :
    valueAt (ds ++ List.replicate k '0') place = valueAt ds place := by
  have power : place - ds.length + 1 = k + (place - (ds.length + k) + 1) := by omega
  rw [valueAt, valueAt, valueFrom_append, valueFrom_zeros, List.length_append, List.length_replicate, Nat.cast_mul,
    cast_tenTo, Nat.cast_add, power, zpow_add₀ (by norm_num) k, zpow_natCast, mul_assoc]

/-- Zeros at its front move a row to the right. -/
theorem valueAt_zeros_append (k : Nat) (ds : List Char) (place : Int) :
    valueAt (List.replicate k '0' ++ ds) place = valueAt ds (place - k) := by
  rw [valueAt, valueAt, valueFrom_append, valueFrom_zeros, Nat.zero_mul, List.length_append, List.length_replicate,
    Nat.cast_add, sub_add_eq_sub_sub]

/-! ### Reading a number without its sign -/

theorem takeWhile_of_exponent? {tail : List Char} {e : Int} (power : exponent? tail = some e) :
    tail.takeWhile isDigit = [] := by
  unfold exponent? at power
  split at power
  · rfl
  · split at power
    · cases power
    · rename_i marked
      refine List.takeWhile_cons_of_neg fun digit => marked ⟨?_, ?_⟩ <;> rintro rfl <;> revert digit <;> decide

theorem exponent?_signed (negative : Bool) {ds : List Char} (more : ds ≠ []) (digits : ∀ c ∈ ds, isDigit c = true) :
    exponent? ('e' :: (if negative then '-' else '+') :: ds)
      = some (if negative then -(valueFrom 0 ds : Int) else valueFrom 0 ds) := by
  have row : (ds.isEmpty || !ds.all isDigit) = false := by
    rw [List.all_eq_true.mpr digits, List.isEmpty_eq_false_iff.mpr more]
    rfl
  cases negative <;> simp [exponent?, row]

theorem exponent?_place (place : Int) :
    exponent? ('e' :: (if place < 0 then '-' else '+') :: Nat.toDigits 10 place.natAbs) = some place := by
  have read := exponent?_signed (place < 0) Nat.toDigits_ne_nil fun _ => isDigit_of_mem_toDigits (n := place.natAbs)
  rw [valueFrom_toDigits] at read
  simp only [decide_eq_true_eq] at read
  rw [read]
  split <;> congr 1 <;> omega

/-- The text starts with a digit, has a point or an exponent, and is read as a number, with either sign. -/
structure Spells (body : List Char) (q : ℚ) : Prop where
  starts : ∃ c cs, body = c :: cs ∧ isDigit c = true
  marked : '.' ∈ body ∨ 'e' ∈ body
  reads : ∀ negative, ∃ d, unsignedDecimal? negative body = some d ∧ d.negative = negative ∧ d.magnitude = q

/-- Digits on both sides of a point are read as one row, the digit before the point in the place of the exponent. -/
theorem Spells.point {whole part tail : List Char} {e : Int} (more : whole ≠ [])
    (front : ∀ c ∈ whole, isDigit c = true) (behind : ∀ c ∈ part, isDigit c = true)
    (power : exponent? tail = some e) :
    Spells (whole ++ '.' :: (part ++ tail)) (valueAt (whole ++ part) (whole.length - 1 + e)) where
  starts := by
    obtain ⟨c, cs, rfl⟩ := List.exists_cons_of_ne_nil more
    exact ⟨c, _, rfl, front c List.mem_cons_self⟩
  marked := .inl (List.mem_append_right _ List.mem_cons_self)
  reads negative := by
    obtain ⟨before, rest⟩ := takeWhile_digits ('.' :: (part ++ tail)) front rfl
    obtain ⟨after, left⟩ := takeWhile_digits tail behind (takeWhile_of_exponent? power)
    refine ⟨⟨negative, valueFrom 0 (whole ++ part), e - part.length⟩, ?_, rfl, ?_⟩
    · simp only [unsignedDecimal?, before, rest, after, left]
      rw [List.isEmpty_eq_false_iff.mpr more, power, valueFrom_append]
      rfl
    · rw [Decimal.magnitude, valueAt, List.length_append]
      congr 2
      dsimp only
      omega

/-- Digits without a point are read as they stand. -/
theorem Spells.plain {whole tail : List Char} {e : Int} (more : whole ≠ [])
    (front : ∀ c ∈ whole, isDigit c = true) (power : exponent? ('e' :: tail) = some e) :
    Spells (whole ++ 'e' :: tail) (valueAt whole (whole.length - 1 + e)) where
  starts := by
    obtain ⟨c, cs, rfl⟩ := List.exists_cons_of_ne_nil more
    exact ⟨c, _, rfl, front c List.mem_cons_self⟩
  marked := .inr (List.mem_append_right _ List.mem_cons_self)
  reads negative := by
    obtain ⟨before, rest⟩ := takeWhile_digits ('e' :: tail) front rfl
    refine ⟨⟨negative, valueFrom 0 whole, e⟩, ?_, rfl, ?_⟩
    · simp [unsignedDecimal?, before, rest, more, power, valueFrom]
    · rw [Decimal.magnitude, valueAt]
      congr 2
      dsimp only
      omega

/-! ### Writing a number without its sign -/

/-- Positional notation, whose digits may end before the point, behind it, or all stand behind it. -/
theorem spells_positional {ds : List Char} (digits : ∀ c ∈ ds, isDigit c = true) (place : Int) :
    Spells (Double.positional ds place) (valueAt ds place) := by
  have zero (k : Nat) : ∀ c ∈ List.replicate k '0', isDigit c = true := fun c => isDigit_of_mem_zeros
  have last : exponent? [] = some 0 := rfl
  cases place with
  | ofNat e =>
    by_cases short : ds.length ≤ e + 1
    · obtain ⟨k, length⟩ := Nat.exists_eq_add_of_le short
      have count : (ds ++ List.replicate k '0').length = e + 1 := by
        rw [List.length_append, List.length_replicate, ← length]
      have more : ds ++ List.replicate k '0' ≠ [] := List.ne_nil_of_length_eq_add_one count
      have spelled := Spells.point more (List.forall_mem_append.mpr ⟨digits, zero k⟩) (zero 1) last
      rw [valueAt_append_zeros, valueAt_append_zeros, count] at spelled
      convert spelled using 1
      · simp [Double.positional, length]
      · simp
    · have count : (ds.take (e + 1)).length = e + 1 := List.length_take_of_le (Nat.le_of_not_le short)
      have more : ds.take (e + 1) ≠ [] := List.ne_nil_of_length_eq_add_one count
      have spelled := Spells.point more (fun c mem => digits c (List.mem_of_mem_take mem))
        (fun c mem => digits c (List.mem_of_mem_drop (i := e + 1) mem)) last
      rw [List.take_append_drop, count] at spelled
      convert spelled using 1
      · have long : e + 1 < ds.length := Nat.lt_of_not_le short
        simp [Double.positional, Nat.not_le_of_lt long, Nat.sub_eq_zero_of_le long.le]
      · simp
  | negSucc e =>
    have spelled := Spells.point (List.cons_ne_nil '0' []) (zero 1)
      (List.forall_mem_append.mpr ⟨zero e, digits⟩) last
    have row : ['0'] ++ (List.replicate e '0' ++ ds) = List.replicate (e + 1) '0' ++ ds := rfl
    rw [row, valueAt_zeros_append, List.length_singleton] at spelled
    convert spelled using 1
    · simp [Double.positional]
    · rw [Int.negSucc_eq, Nat.cast_one, sub_self, zero_add, zero_sub, Nat.cast_succ]

/-- Scientific notation, with a point or without. -/
theorem spells_scientific {ds : List Char} (more : ds ≠ []) (digits : ∀ c ∈ ds, isDigit c = true) (place : Int) :
    Spells (Double.scientific ds place) (valueAt ds place) := by
  have power := exponent?_place place
  obtain ⟨d, rest, rfl⟩ := List.exists_cons_of_ne_nil more
  obtain ⟨first, others⟩ := List.forall_mem_cons.mp digits
  cases rest with
  | nil =>
    have spelled := Spells.plain more digits power
    rwa [List.length_singleton, Nat.cast_one, sub_self, zero_add] at spelled
  | cons d' rest =>
    have spelled := Spells.point (List.cons_ne_nil d []) (List.forall_mem_singleton.mpr first) others power
    rwa [List.length_singleton, Nat.cast_one, sub_self, zero_add] at spelled

/-- A row is what is left of it without the zeros at its end, and zeros. -/
theorem exists_zeros (cs : List Char) : ∃ k, cs = Double.dropTrailingZeros cs ++ List.replicate k '0' := by
  have zeros : cs.reverse.takeWhile (· == '0') = List.replicate (cs.reverse.takeWhile (· == '0')).length '0' :=
    List.eq_replicate_of_mem fun c mem => beq_iff_eq.mp (List.mem_takeWhile_imp (p := (· == '0')) mem)
  refine ⟨(cs.reverse.takeWhile (· == '0')).length, ?_⟩
  rw [Double.dropTrailingZeros, ← List.reverse_replicate, ← zeros, ← List.reverse_append,
    List.takeWhile_append_dropWhile, List.reverse_reverse]

/-! ### The sign -/

theorem toLower_of_isDigit {c : Char} (digit : isDigit c = true) : c.toLower = c := by
  obtain ⟨-, high⟩ := isDigit_iff.mp digit
  refine dif_neg fun upper => ?_
  have low : 'A'.toNat ≤ c.toNat := UInt32.le_iff_toNat_le.mp upper.1
  exact absurd (low.trans high) (by decide)

/-- No word for a number starts with a digit. -/
theorem wordValue?_of_isDigit (negative : Bool) {c : Char} (cs : List Char) (digit : isDigit c = true) :
    wordValue? negative (c :: cs) = none := by
  have other {word : String} {first : Char} (head : word.toList.head? = some first)
      (letter : isDigit first = false) : String.ofList ((c :: cs).map Char.toLower) ≠ word := by
    rintro rfl
    rw [String.toList_ofList, List.map_cons, toLower_of_isDigit digit] at head
    cases head
    exact Bool.noConfusion (letter.symm.trans digit)
  rw [wordValue?, if_neg (not_or.mpr ⟨other rfl rfl, other rfl rfl⟩), if_neg (other rfl rfl)]

/-- A number is read with its sign. -/
theorem double_of_spells {body : List Char} {q : ℚ} (spelled : Spells body q) (negative : Bool) :
    ∃ d : Decimal, double ((if negative then ['-'] else []) ++ body) = .ok d.toDouble ∧
      d.negative = negative ∧ d.magnitude = q := by
  obtain ⟨d, read, sign, value⟩ := spelled.reads negative
  obtain ⟨c, cs, rfl, digit⟩ := spelled.starts
  refine ⟨d, ?_, sign, value⟩
  have word := wordValue?_of_isDigit negative cs digit
  cases negative with
  | true => simp [double, word, read]
  | false =>
    have minus : c ≠ '-' := fun same => absurd digit (by rw [same]; decide)
    have plus : c ≠ '+' := fun same => absurd digit (by rw [same]; decide)
    simp [double, minus, plus, word, read]

end Numeral

namespace Double

open Numeral

/-- The digits of a number, without the zeros at their end, in the notation that its leading place asks for. -/
theorem spells_digits {d : Decimal} (some : 0 < d.digits) {all ds : List Char} {place : Int}
    (row : all = Nat.toDigits 10 d.digits) (left : ds = dropTrailingZeros all)
    (first : place = d.exponent + all.length - 1) :
    Spells (if -5 ≤ place ∧ place < 16 then positional ds place else scientific ds place) d.magnitude := by
  obtain ⟨k, zeros⟩ := exists_zeros all
  rw [← left] at zeros
  have value : valueAt ds place = d.magnitude := by
    have power : place - all.length + 1 = d.exponent := by omega
    rw [← valueAt_append_zeros ds k, ← zeros, valueAt, power, row, valueFrom_toDigits, Decimal.magnitude]
  have digits : ∀ c ∈ ds, isDigit c = true := by
    intro c mem
    apply isDigit_of_mem_toDigits (n := d.digits)
    rw [← row, zeros]
    exact List.mem_append_left _ mem
  have more : ds ≠ [] := by
    rintro rfl
    have none := valueFrom_toDigits d.digits
    rw [← row, zeros, List.nil_append, valueFrom_zeros, Nat.zero_mul] at none
    exact some.ne none
  rw [← value]
  split
  · exact spells_positional digits place
  · exact spells_scientific more digits place

theorem significand_pos {x : Double} (some : ¬x.isZero = true) : 0 < x.significand := by
  refine Nat.pos_of_ne_zero fun zero => some ?_
  rw [isZero, units, zero, Nat.zero_mul]
  rfl

/-- Of a zero there is only the sign. -/
theorem make_zero {x : Double} (zero : x.isZero = true) : make x.negative 0 = x := by
  have none : x.significand = 0 :=
    (Nat.mul_eq_zero.mp (beq_iff_eq.mp zero)).resolve_right (twoTo_pos x.scale).ne'
  have unscaled : x.scale = 0 := by
    refine Nat.eq_zero_of_not_pos fun scaled => ?_
    have low := le_significand scaled
    rw [none] at low
    exact absurd (twoTo_pos 52) (Nat.not_lt.mpr low)
  have parts := x.make_parts
  rwa [none, unscaled] at parts

/-- What stands behind the sign in the text of a finite double is a number that only the double is read from. -/
theorem exists_spelling {x : Double} (finite : x.isFinite = true) : ∃ body q,
    x.text.toList = (if x.negative then ['-'] else []) ++ body ∧ Spells body q ∧
      ∀ d : Decimal, d.negative = x.negative → d.magnitude = q → d.toDouble = x := by
  by_cases zero : x.isZero = true
  · have digit : ∀ c ∈ ['0'], isDigit c = true := fun c mem => isDigit_of_mem_zeros (k := 1) mem
    refine ⟨['0', '.', '0'], valueAt ['0'] 0, ?_, spells_positional digit 0, fun d sign value => ?_⟩
    · rw [text, if_pos zero, String.toList_ofList]
    · have unit : (10 : ℚ) ^ d.exponent ≠ 0 := zpow_ne_zero _ (by norm_num)
      have none : d.digits = 0 := by
        rw [Decimal.magnitude, valueAt, show valueFrom 0 ['0'] = 0 from rfl, Nat.cast_zero, zero_mul] at value
        exact Nat.cast_eq_zero.mp ((mul_eq_zero.mp value).resolve_right unit)
      rw [Decimal.toDouble, if_pos none, sign, make_zero zero]
  · have some := significand_pos zero
    have within := contains_shortest some
    rw [text, if_neg zero, String.toList_ofList]
    refine ⟨_, x.shortest.magnitude, rfl, spells_digits (Decimal.digits_pos finite some within) rfl rfl rfl, ?_⟩
    intro d sign value
    rw [← value] at within
    exact Decimal.toDouble_eq finite some sign within

/-- The text of a finite double is read as the double. -/
theorem double_text {x : Double} (finite : x.isFinite = true) : double x.text.toList = .ok x := by
  obtain ⟨body, q, text, spelled, own⟩ := exists_spelling finite
  obtain ⟨d, read, sign, value⟩ := double_of_spells spelled x.negative
  rw [text, read, own d sign value]

theorem text_inj {x y : Double} (finite : x.isFinite = true) (other : y.isFinite = true) :
    x.text = y.text ↔ x = y := by
  refine ⟨fun same => ?_, congrArg text⟩
  have read := double_text finite
  rw [same, double_text other] at read
  exact (Except.ok.inj read).symm

/-- A point or an exponent is in the text of a finite double. -/
theorem text_ne_repr {x : Double} (finite : x.isFinite = true) (n : Int) : x.text ≠ n.repr := by
  intro same
  obtain ⟨body, q, text, spelled, -⟩ := exists_spelling finite
  have whole {c : Char} (mem : c ∈ body) : c = '-' ∨ isDigit c = true := by
    apply sign_or_isDigit_of_mem_repr (n := n)
    rw [← same, text]
    exact List.mem_append_right _ mem
  rcases spelled.marked with mark | mark <;> exact absurd (whole mark) (by decide)

end Double

end Flowgraph
