import Flowgraph.Number.Double
import Mathlib.Tactic.SplitIfs

/-! Whole numbers as doubles. The double nearest to a whole number of more than 53 bits is the number rounded
    to its leading 53 bits, a tie going to the even neighbour. -/

namespace Flowgraph

theorem twoTo_add (m n : Nat) : twoTo (m + n) = twoTo m * twoTo n := Nat.pow_add 2 m n

theorem twoTo_pos (n : Nat) : 0 < twoTo n := Nat.two_pow_pos n

namespace Double

/-! ### The nearest quotient -/

theorem divideToEven_mul (a b : Nat) {c : Nat} (pos : 0 < c) :
    divideToEven (a * c) (b * c) = divideToEven a b := by
  have scaled (x y : Nat) : 2 * (x * c) < y * c ↔ 2 * x < y := by
    rw [← Nat.mul_assoc]
    exact Nat.mul_lt_mul_right pos
  have scaled' (x y : Nat) : y * c < 2 * (x * c) ↔ y < 2 * x := by
    rw [← Nat.mul_assoc]
    exact Nat.mul_lt_mul_right pos
  simp only [divideToEven, Nat.mul_div_mul_right _ _ pos, Nat.mul_mod_mul_right, scaled, scaled']

/-- The nearest quotient is at most `q` just if the quotient is below the middle between `q` and its
    successor, or in the middle and `q` is even. -/
theorem divideToEven_le_iff (a : Nat) {b : Nat} (pos : 0 < b) (q : Nat) :
    divideToEven a b ≤ q ↔ 2 * a < (2 * q + 1) * b ∨ 2 * a = (2 * q + 1) * b ∧ q % 2 = 0 := by
  have whole := Nat.div_add_mod a b
  have part := Nat.mod_lt a pos
  have split : (2 * q + 1) * b = 2 * (b * q) + b := by
    rw [Nat.add_mul, Nat.one_mul, Nat.mul_assoc, Nat.mul_comm q b]
  rw [divideToEven, split]
  generalize a / b = d at whole ⊢
  generalize a % b = r at whole part ⊢
  -- Only the multiples of `b` next to the whole part have to be compared.
  rcases Nat.lt_trichotomy d q with less | rfl | more
  · have next : b * (d + 1) ≤ b * q := Nat.mul_le_mul_left b less
    rw [Nat.mul_add, Nat.mul_one] at next
    split_ifs <;> omega
  · split_ifs <;> omega
  · have next : b * (q + 1) ≤ b * d := Nat.mul_le_mul_left b more
    rw [Nat.mul_add, Nat.mul_one] at next
    split_ifs <;> omega

theorem le_divideToEven {a b q : Nat} (pos : 0 < b) (le : q * b ≤ a) : q ≤ divideToEven a b := by
  have whole : q ≤ a / b := (Nat.le_div_iff_mul_le pos).mpr le
  rw [divideToEven]
  split_ifs <;> omega

/-! ### The parts of a double -/

section
variable (negative : Bool) {m : Nat} (small : m < twoTo 63)
include small

theorem word_make : (make negative m).word = m + if negative then twoTo 63 else 0 := by
  have bound : twoTo 63 + twoTo 63 = UInt64.size := by decide
  rw [word, make, UInt64.toNat_ofNat_of_lt']
  split <;> omega

theorem negative_make : (make negative m).negative = negative := by
  rw [Double.negative, word_make negative small]
  cases negative with
  | false => simpa using small
  | true => simp

theorem field_make : (make negative m).field = m / twoTo 52 := by
  have parts : twoTo 63 = twoTo 11 * twoTo 52 := twoTo_add 11 52
  have pos := twoTo_pos 52
  have below : m / twoTo 52 < twoTo 11 := (Nat.div_lt_iff_lt_mul pos).mpr (parts ▸ small)
  rw [field, word_make negative small]
  cases negative with
  | false => exact Nat.mod_eq_of_lt below
  | true =>
    rw [if_pos rfl, parts, Nat.add_mul_div_right _ _ pos, Nat.add_mod_right, Nat.mod_eq_of_lt below]

theorem fraction_make : (make negative m).fraction = m % twoTo 52 := by
  have parts : twoTo 63 = twoTo 11 * twoTo 52 := twoTo_add 11 52
  rw [fraction, word_make negative small]
  cases negative with
  | false => rfl
  | true => rw [if_pos rfl, parts, Nat.add_mul_mod_self_right]

end

/-- A significand on top of a scale in the exponent field; a carry out of the significand goes into the
    exponent. -/
theorem units_make (negative : Bool) {k q : Nat} (normal : twoTo 52 ≤ q) (high : q ≤ twoTo 53)
    (small : k * twoTo 52 + q < twoTo 63) :
    (make negative (k * twoTo 52 + q)).units = q * twoTo k := by
  have pos := twoTo_pos 52
  have double : twoTo 53 = twoTo 52 + twoTo 52 := by decide
  have field := field_make negative small
  have fraction := fraction_make negative small
  rw [Nat.mul_comm, Nat.mul_add_div pos] at field
  rw [Nat.mul_comm, Nat.mul_add_mod_self_left] at fraction
  rw [Nat.mul_comm k, units, significand, scale, field, fraction, if_neg]
  · rcases Nat.lt_or_eq_of_le high with less | rfl
    · have one : q / twoTo 52 = 1 := Nat.div_eq_of_lt_le (by omega) (by omega)
      have rest : q % twoTo 52 + twoTo 52 = q := by
        rw [Nat.mod_eq_sub_mod normal, Nat.mod_eq_of_lt (by omega), Nat.sub_add_cancel normal]
      rw [one, rest, Nat.add_sub_cancel]
    · have two : twoTo 53 / twoTo 52 = 2 := by decide
      have rest : twoTo 53 % twoTo 52 + twoTo 52 = twoTo 52 := by decide
      rw [two, rest, Nat.add_sub_assoc (by decide), Nat.add_comm k, twoTo_add, ← Nat.mul_assoc,
        ← twoTo_add]
  · have some : 0 < q / twoTo 52 := Nat.div_pos normal pos
    omega

/-! ### Whole numbers -/

theorem log2_mul_twoTo {n e : Nat} (low : twoTo e ≤ n) (high : n < twoTo (e + 1)) (k : Nat) :
    Nat.log2 (n * twoTo k) = e + k := by
  have pos := twoTo_pos k
  have some : 0 < n * twoTo k := Nat.mul_pos (Nat.lt_of_lt_of_le (twoTo_pos e) low) pos
  refine (Nat.log2_eq_iff (Nat.ne_of_gt some)).mpr ⟨?_, ?_⟩
  · exact Nat.pow_add 2 e k ▸ Nat.mul_le_mul_right _ low
  · rw [Nat.add_right_comm, Nat.pow_add]
    exact Nat.mul_lt_mul_of_pos_right high pos

/-- Of a whole number of `53 + e` bits 53 are left, or it becomes the next power of two. -/
theorem rounded_bounds {n e : Nat} (low : twoTo (52 + e) ≤ n) (high : n < twoTo (53 + e)) :
    twoTo 52 ≤ divideToEven n (twoTo e) ∧ divideToEven n (twoTo e) ≤ twoTo 53 := by
  have pos := twoTo_pos e
  refine ⟨le_divideToEven pos (twoTo_add 52 e ▸ low), (divideToEven_le_iff n pos _).mpr (.inl ?_)⟩
  rw [twoTo_add] at high
  rw [Nat.add_mul, Nat.mul_assoc]
  omega

theorem ofInt_eq_make {n e : Nat} (low : twoTo (52 + e) ≤ n) (high : n < twoTo (53 + e)) (range : e ≤ 970) :
    (e + 1074) * twoTo 52 + divideToEven n (twoTo e) < infinityWord ∧
      ofInt n = make false ((e + 1074) * twoTo 52 + divideToEven n (twoTo e)) := by
  obtain ⟨-, full⟩ := rounded_bounds low high
  -- The places that are cut off are those of `n` and the 1074 of the unit.
  have cut : Nat.log2 (n * twoTo 1074 / 1) - 52 = e + 1074 := by
    rw [Nat.div_one, log2_mul_twoTo low (by rwa [Nat.add_right_comm])]
    omega
  have quotient : divideToEven (n * twoTo 1074) (1 * twoTo (e + 1074)) = divideToEven n (twoTo e) := by
    rw [Nat.one_mul, twoTo_add, divideToEven_mul _ _ (twoTo_pos _)]
  have unit := twoTo_pos 52
  have bound : (e + 1074) * twoTo 52 ≤ 2044 * twoTo 52 := Nat.mul_le_mul_right _ (by omega)
  have infinity : infinityWord = 2044 * twoTo 52 + (twoTo 53 + twoTo 52) := by decide
  have small : (e + 1074) * twoTo 52 + divideToEven n (twoTo e) < infinityWord := by omega
  have sign : decide ((n : Int) < 0) = false := by simp
  refine ⟨small, ?_⟩
  rw [ofInt, ofRatio, Int.natAbs_natCast, cut, quotient, sign, Nat.min_eq_left (Nat.le_of_lt small)]

/-- A whole number of `53 + e` bits is rounded to a multiple of `2 ^ e`. -/
theorem truncate_ofInt {n e : Nat} (low : twoTo (52 + e) ≤ n) (high : n < twoTo (53 + e))
    (range : e ≤ 970) :
    (ofInt n).isFinite = true ∧ (ofInt n).truncate = divideToEven n (twoTo e) * twoTo e := by
  obtain ⟨normal, full⟩ := rounded_bounds low high
  obtain ⟨small, made⟩ := ofInt_eq_make low high range
  generalize divideToEven n (twoTo e) = q at normal full small made ⊢
  have within := Nat.lt_trans small (show infinityWord < twoTo 63 by decide)
  rw [made]
  constructor
  · have field : ((e + 1074) * twoTo 52 + q) / twoTo 52 < 2047 :=
      (Nat.div_lt_iff_lt_mul (twoTo_pos 52)).mpr small
    rw [isFinite, field_make false within]
    exact bne_iff_ne.mpr (Nat.ne_of_lt field)
  · rw [truncate, units_make false normal full within, negative_make false within, twoTo_add,
      ← Nat.mul_assoc, Nat.mul_div_cancel _ (twoTo_pos 1074)]
    simp

/-- Two whole numbers of `53 + e` bits become one double just if the same multiple of `2 ^ e` is nearest to both. -/
theorem ofInt_inj {m n e : Nat} (low : twoTo (52 + e) ≤ m ∧ twoTo (52 + e) ≤ n)
    (high : m < twoTo (53 + e) ∧ n < twoTo (53 + e)) (range : e ≤ 970) :
    ofInt m = ofInt n ↔ divideToEven m (twoTo e) = divideToEven n (twoTo e) := by
  constructor
  · intro same
    have multiple := (truncate_ofInt low.1 high.1 range).2
    rw [same, (truncate_ofInt low.2 high.2 range).2] at multiple
    exact (Nat.eq_of_mul_eq_mul_right (twoTo_pos e) (Int.ofNat.inj multiple)).symm
  · intro same
    rw [(ofInt_eq_make low.1 high.1 range).2, (ofInt_eq_make low.2 high.2 range).2, same]

end Double

end Flowgraph
