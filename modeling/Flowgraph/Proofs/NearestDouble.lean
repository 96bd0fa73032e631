import Flowgraph.Number.Decimal
import Flowgraph.Proofs.Rounding
import Mathlib.Algebra.Order.Field.Power
import Mathlib.Algebra.Order.Field.Rat
import Mathlib.Tactic.FieldSimp
import Mathlib.Tactic.Linarith
import Mathlib.Tactic.NormNum
import Mathlib.Tactic.Positivity
import Mathlib.Tactic.Ring

/-! The decimals that round to a double. They are those of an interval around it (`toDouble_eq`), and the shortest
    digits of the double are in its interval (`contains_shortest`): the search for them ends, at the latest, at the
    grid of seventeen digits, where half a step is less than either side of the interval. -/

namespace Flowgraph

theorem twoTo_mono {m n : Nat} (le : m ≤ n) : twoTo m ≤ twoTo n := Nat.pow_le_pow_right (by decide) le

theorem cast_tenTo (n : Nat) : ((tenTo n : Nat) : ℚ) = 10 ^ n := Nat.cast_pow 10 n

theorem twoTo_1076 : twoTo 1076 = 4 * twoTo 1074 := by
  rw [show (1076 : Nat) = 2 + 1074 from rfl, twoTo_add, show twoTo 2 = 4 from rfl]

theorem tenTo_pos (n : Nat) : 0 < tenTo n := Nat.pow_pos (by decide)

namespace Double

/-! ### The interval -/

namespace RoundingInterval

/-- The number is in the interval, at an end only if the interval is closed. -/
def Contains (i : RoundingInterval) (q : ℚ) : Prop :=
  if i.closed then i.low ≤ q * (twoTo 1076 : Nat) ∧ q * (twoTo 1076 : Nat) ≤ i.high
  else i.low < q * (twoTo 1076 : Nat) ∧ q * (twoTo 1076 : Nat) < i.high

theorem Contains.of_lt {i : RoundingInterval} {q : ℚ} (low : i.low < q * (twoTo 1076 : Nat))
    (high : q * (twoTo 1076 : Nat) < i.high) : i.Contains q := by
  rw [Contains]
  split
  · exact ⟨low.le, high.le⟩
  · exact ⟨low, high⟩

end RoundingInterval

/-- Both numbers of a comparison on a grid are taken as many times. -/
theorem exists_onGrid_eq (p : Int) : ∃ s : ℚ, 0 < s ∧ ∀ c a : Nat,
    ((onGrid c p a).1 : ℚ) = c * 10 ^ p * (twoTo 1076 : Nat) * s ∧ ((onGrid c p a).2 : ℚ) = a * s := by
  cases p with
  | ofNat e =>
    refine ⟨1, one_pos, fun c a => ⟨?_, ?_⟩⟩
    · rw [onGrid, Nat.cast_mul, Nat.cast_mul, cast_tenTo, Int.ofNat_eq_natCast, zpow_natCast, mul_one]
    · rw [onGrid, mul_one]
  | negSucc e =>
    have pos : (0 : ℚ) < 10 ^ (e + 1) := by positivity
    refine ⟨10 ^ (e + 1), pos, fun c a => ⟨?_, ?_⟩⟩
    · rw [onGrid, Nat.cast_mul, zpow_negSucc]
      generalize ((twoTo 1076 : Nat) : ℚ) = unit
      field_simp
    · rw [onGrid, Nat.cast_mul, cast_tenTo]

theorem onGrid_le {c : Nat} {p : Int} {a : Nat} :
    (onGrid c p a).2 ≤ (onGrid c p a).1 ↔ (a : ℚ) ≤ c * 10 ^ p * (twoTo 1076 : Nat) := by
  obtain ⟨s, pos, grid⟩ := exists_onGrid_eq p
  rw [← Nat.cast_le (α := ℚ), (grid c a).1, (grid c a).2, mul_le_mul_iff_of_pos_right pos]

theorem le_onGrid {c : Nat} {p : Int} {a : Nat} :
    (onGrid c p a).1 ≤ (onGrid c p a).2 ↔ c * 10 ^ p * (twoTo 1076 : Nat) ≤ (a : ℚ) := by
  obtain ⟨s, pos, grid⟩ := exists_onGrid_eq p
  rw [← Nat.cast_le (α := ℚ), (grid c a).1, (grid c a).2, mul_le_mul_iff_of_pos_right pos]

namespace RoundingInterval

variable {i : RoundingInterval}

theorem holds_iff {c : Nat} {p : Int} : i.holds c p = true ↔ i.Contains (c * 10 ^ p) := by
  rw [holds, Contains]
  cases i.closed with
  | true => simp only [if_pos, Bool.and_eq_true, decide_eq_true_eq, onGrid_le, le_onGrid]
  | false =>
    simp only [Bool.false_eq_true, if_false, Bool.and_eq_true, decide_eq_true_eq, lt_iff_not_ge, onGrid_le,
      le_onGrid]

theorem contains_of_onStep? {p : Int} {c : Nat} (found : i.onStep? p = some c) : i.Contains (c * 10 ^ p) := by
  rw [← holds_iff]
  rw [onStep?] at found
  dsimp only at found
  -- Which neighbour is tried first does not matter here.
  split at found
  all_goals
    split at found
    · rename_i first
      cases found
      exact first
    · split at found
      · rename_i second
        cases found
        exact second
      · cases found

/-- The value lies behind a point of the grid by less than a step. -/
theorem exists_below_eq (i : RoundingInterval) (p : Int) : ∃ s : ℚ, 0 < s ∧
    ((i.below p).2.2 : ℚ) = 10 ^ p * (twoTo 1076 : Nat) * s ∧
    i.value * s = (i.below p).1 * (i.below p).2.2 + (i.below p).2.1 ∧ (i.below p).2.1 < (i.below p).2.2 := by
  cases p with
  | ofNat e =>
    refine ⟨1, one_pos, ?_, ?_, ?_⟩
    · rw [below, Nat.cast_mul, cast_tenTo, Int.ofNat_eq_natCast, zpow_natCast, mul_one]
    · rw [below, mul_one, ← Nat.cast_mul, ← Nat.cast_add, Nat.div_add_mod']
    · rw [below]
      exact Nat.mod_lt _ (Nat.mul_pos (tenTo_pos e) (twoTo_pos 1076))
  | negSucc e =>
    have pos : (0 : ℚ) < 10 ^ (e + 1) := by positivity
    refine ⟨10 ^ (e + 1), pos, ?_, ?_, ?_⟩
    · rw [below, zpow_negSucc]
      dsimp only
      generalize ((twoTo 1076 : Nat) : ℚ) = unit
      field_simp
    · rw [below, ← cast_tenTo, ← Nat.cast_mul, ← Nat.cast_mul, ← Nat.cast_add, Nat.div_add_mod']
    · rw [below]
      dsimp only
      exact Nat.mod_lt _ (twoTo_pos 1076)

/-- A grid of which half a step is less than either side of the interval has a point in the interval. -/
theorem exists_onStep? {p : Int} (lower : 10 ^ p * (twoTo 1076 : Nat) < 2 * ((i.value : ℚ) - i.low))
    (upper : 10 ^ p * (twoTo 1076 : Nat) < 2 * ((i.high : ℚ) - i.value)) : ∃ c, i.onStep? p = some c := by
  obtain ⟨s, pos, step, value, short⟩ := i.exists_below_eq p
  -- A point at most half a step away from the value is in the interval.
  have near (c : Nat) (left : 2 * (i.value * s - c * (i.below p).2.2) ≤ ((i.below p).2.2 : ℚ))
      (right : 2 * (c * (i.below p).2.2 - i.value * s) ≤ ((i.below p).2.2 : ℚ)) : i.holds c p = true := by
    rw [holds_iff]
    have lower := mul_lt_mul_of_pos_right lower pos
    have upper := mul_lt_mul_of_pos_right upper pos
    rw [← step] at lower upper
    have point : (c : ℚ) * 10 ^ p * (twoTo 1076 : Nat) * s = c * (i.below p).2.2 := by rw [step]; ring
    refine .of_lt (lt_of_mul_lt_mul_right ?_ pos.le) (lt_of_mul_lt_mul_right ?_ pos.le)
    · rw [point]
      linarith
    · rw [point]
      linarith
  rw [onStep?]
  generalize i.below p = b at near value short ⊢
  obtain ⟨c, off, width⟩ := b
  dsimp only at near value short ⊢
  have short : (off : ℚ) < width := Nat.cast_lt.mpr short
  split
  · rename_i up
    have far : (width : ℚ) ≤ 2 * off := by
      have : width ≤ 2 * off := by
        simp only [Bool.or_eq_true, decide_eq_true_eq, Bool.and_eq_true, beq_iff_eq] at up
        omega
      exact_mod_cast this
    refine ⟨c + 1, if_pos (near (c + 1) ?_ ?_)⟩ <;> push_cast <;> linarith
  · rename_i down
    have close : 2 * (off : ℚ) ≤ width := by
      have : 2 * off ≤ width := by
        simp only [Bool.or_eq_true, decide_eq_true_eq, not_or] at down
        omega
      exact_mod_cast this
    have positive : (0 : ℚ) ≤ off := Nat.cast_nonneg off
    refine ⟨c, if_pos (near c ?_ ?_)⟩ <;> linarith

end RoundingInterval

/-! ### The parts of a double -/

section
variable (x : Double)

theorem fraction_lt : x.fraction < twoTo 52 := Nat.mod_lt _ (twoTo_pos 52)

theorem significand_lt : x.significand < twoTo 53 := by
  have fraction := x.fraction_lt
  have double : twoTo 53 = twoTo 52 + twoTo 52 := by decide
  rw [significand]
  split <;> omega

/-- The significand on top of the scale is what the word is made of, but for the sign. -/
theorem make_parts : make x.negative (x.scale * twoTo 52 + x.significand) = x := by
  have pos := twoTo_pos 52
  have parts : twoTo 63 = twoTo 11 * twoTo 52 := twoTo_add 11 52
  have fields : twoTo 11 + twoTo 11 = twoTo 12 := by decide
  have bound : x.word < twoTo 12 * twoTo 52 := by
    have size : UInt64.size = twoTo 12 * twoTo 52 := by decide
    exact size ▸ x.bits.toNat_lt_size
  have high : x.word / twoTo 52 < twoTo 12 := (Nat.div_lt_iff_lt_mul pos).mpr bound
  have whole : x.word / twoTo 52 * twoTo 52 + x.fraction = x.word := Nat.div_add_mod' x.word (twoTo 52)
  have sum : x.scale * twoTo 52 + x.significand = x.field * twoTo 52 + x.fraction := by
    rw [scale, significand]
    split
    · rename_i zero
      rw [zero]
    · rename_i normal
      rw [Nat.add_comm x.fraction, ← Nat.add_assoc, ← Nat.succ_mul, Nat.succ_eq_add_one,
        Nat.sub_add_cancel (Nat.pos_of_ne_zero normal)]
  have sign : x.field * twoTo 52 + x.fraction + (if x.negative then twoTo 63 else 0) = x.word := by
    rw [negative, field, parts]
    by_cases set : twoTo 11 * twoTo 52 ≤ x.word
    · have top : twoTo 11 ≤ x.word / twoTo 52 := (Nat.le_div_iff_mul_le pos).mpr set
      rw [if_pos (by simpa using set), Nat.mod_eq_sub_mod top, Nat.mod_eq_of_lt (by omega), Nat.sub_mul]
      have := Nat.mul_le_mul_right (twoTo 52) top
      omega
    · have top : x.word / twoTo 52 < twoTo 11 := (Nat.div_lt_iff_lt_mul pos).mpr (Nat.lt_of_not_le set)
      rw [if_neg (by simpa using set), Nat.mod_eq_of_lt top]
      omega
  rw [make, sum, sign, word, UInt64.ofNat_toNat]

variable {x}

theorem le_significand (scaled : 0 < x.scale) : twoTo 52 ≤ x.significand := by
  rw [scale] at scaled
  rw [significand, if_neg (by omega)]
  exact Nat.le_add_left _ _

theorem scale_le (finite : x.isFinite = true) : x.scale ≤ 2045 := by
  have other : x.field ≠ 2047 := bne_iff_ne.mp finite
  have bound : x.field < 2048 := Nat.mod_lt _ (twoTo_pos 11)
  rw [scale]
  omega

end

/-! ### Rounding into the interval -/

/-- The nearest quotient is the whole number that the quotient is at most a half away from; just a half is
    near enough if that number is even. -/
theorem divideToEven_eq {a b q : Nat} (pos : 0 < b) (some : 0 < q)
    (low : (2 * q - 1) * b ≤ 2 * a) (high : 2 * a ≤ (2 * q + 1) * b)
    (inside : q % 2 = 1 → (2 * q - 1) * b < 2 * a ∧ 2 * a < (2 * q + 1) * b) : divideToEven a b = q := by
  refine Nat.le_antisymm ((divideToEven_le_iff a pos q).mpr ?_) (Nat.le_of_pred_lt (Nat.lt_of_not_le ?_))
  · by_cases odd : q % 2 = 1
    · exact .inl (inside odd).2
    · rcases Nat.lt_or_eq_of_le high with less | same
      · exact .inl less
      · exact .inr ⟨same, by omega⟩
  · rw [divideToEven_le_iff a pos, show 2 * q.pred + 1 = 2 * q - 1 by rw [Nat.pred_eq_sub_one]; omega]
    rintro (less | ⟨same, even⟩)
    · omega
    · have odd : q % 2 = 1 := by rw [Nat.pred_eq_sub_one] at even; omega
      have := (inside odd).1
      omega

theorem log2_div_eq {n den k : Nat} (pos : 0 < den) (low : twoTo k * den ≤ n) (high : n < twoTo (k + 1) * den) :
    Nat.log2 (n / den) = k := by
  have least : twoTo k ≤ n / den := (Nat.le_div_iff_mul_le pos).mpr low
  have most : n / den < twoTo (k + 1) := (Nat.div_lt_iff_lt_mul pos).mpr high
  exact (Nat.log2_eq_iff (Nat.ne_of_gt (Nat.lt_of_lt_of_le (twoTo_pos k) least))).mpr ⟨least, most⟩

/-- A quotient less than a half of the finer unit below a power of two is rounded up to it. -/
theorem divideToEven_carry {n unit : Nat} (pos : 0 < unit) (low : (4 * twoTo 52 - 1) * (2 * unit) ≤ 4 * n)
    (high : n < twoTo 52 * (2 * unit)) : divideToEven n unit = twoTo 53 := by
  have pair : twoTo 53 = 2 * twoTo 52 := by decide
  rw [Nat.mul_left_comm] at high
  rw [Nat.sub_mul, Nat.one_mul, Nat.mul_assoc, Nat.mul_left_comm (twoTo 52)] at low
  refine divideToEven_eq pos (by decide) ?_ ?_ fun odd => absurd odd (by decide)
  all_goals
    rw [pair]
    simp only [Nat.sub_mul, Nat.add_mul, Nat.mul_assoc, Nat.one_mul]
    omega

/-- A quotient around `m` units of `2 ^ s` is rounded to `m` on top of `s`. The quotient has as many places as
    `m` units have, or one place less if they are a power of two and it is below. -/
theorem word_eq {m s n den : Nat} (pos : 0 < den) (some : 0 < m) (bound : m < twoTo 53)
    (normal : 0 < s → twoTo 52 ≤ m) (low : (4 * m - 2) * (den * twoTo s) ≤ 4 * n)
    (tight : m = twoTo 52 → 0 < s → (4 * m - 1) * (den * twoTo s) ≤ 4 * n)
    (high : 4 * n ≤ (4 * m + 2) * (den * twoTo s))
    (inside : m % 2 = 1 → (4 * m - 2) * (den * twoTo s) < 4 * n ∧ 4 * n < (4 * m + 2) * (den * twoTo s)) :
    (Nat.log2 (n / den) - 52) * twoTo 52 + divideToEven n (den * twoTo (Nat.log2 (n / den) - 52))
      = s * twoTo 52 + m := by
  have places (k t : Nat) : twoTo (k + t) * den = twoTo k * (den * twoTo t) := by
    rw [twoTo_add, Nat.mul_assoc, Nat.mul_comm den]
  have unit : 0 < den * twoTo s := Nat.mul_pos pos (twoTo_pos s)
  have whole : den * twoTo s ≤ m * (den * twoTo s) := Nat.le_mul_of_pos_left _ some
  have most := Nat.mul_le_mul_right (den * twoTo s) bound
  simp only [Nat.sub_mul, Nat.add_mul, Nat.mul_assoc, Nat.one_mul, Nat.succ_eq_add_one] at low high inside most
  have aligned : divideToEven n (den * twoTo s) = m := by
    refine divideToEven_eq unit some ?_ ?_ fun odd => ?_
    all_goals simp only [Nat.sub_mul, Nat.add_mul, Nat.mul_assoc, Nat.one_mul]
    · omega
    · omega
    · have := inside odd
      omega
  have below : n < twoTo 53 * (den * twoTo s) := by omega
  by_cases reach : twoTo 52 * (den * twoTo s) ≤ n
  · have same : Nat.log2 (n / den) = 52 + s := by
      refine log2_div_eq pos (places 52 s ▸ reach) ?_
      rw [Nat.add_right_comm, places]
      exact below
    rw [same, Nat.add_sub_cancel_left, aligned]
  · have reach := Nat.lt_of_not_le reach
    cases s with
    | zero =>
      have few : n / den < twoTo 52 := (Nat.div_lt_iff_lt_mul pos).mpr (places 52 0 ▸ reach)
      have short : Nat.log2 (n / den) - 52 = 0 := by
        rcases Nat.eq_zero_or_pos (n / den) with none | some
        · rw [none, Nat.log2_zero]
        · have := (Nat.log2_lt (Nat.ne_of_gt some)).mpr few
          omega
      rw [short, aligned]
    | succ t =>
      have least : m = twoTo 52 := by
        refine Nat.le_antisymm (Nat.le_of_lt_succ (Nat.lt_of_not_le fun more => ?_)) (normal (Nat.succ_pos t))
        have := Nat.mul_le_mul_right (den * twoTo (t + 1)) more
        rw [Nat.succ_mul] at this
        omega
      have half : den * twoTo (t + 1) = 2 * (den * twoTo t) := by
        rw [Nat.add_comm, twoTo_add, Nat.mul_left_comm]
        rfl
      have tight := tight least (Nat.succ_pos t)
      rw [least, half] at tight
      rw [half] at reach
      have less : Nat.log2 (n / den) = 52 + t := by
        refine log2_div_eq pos ?_ ?_
        · have some := Nat.le_mul_of_pos_left (den * twoTo t) (twoTo_pos 52)
          rw [places]
          rw [Nat.sub_mul, Nat.one_mul, Nat.mul_assoc, Nat.mul_left_comm (twoTo 52)] at tight
          omega
        · rw [Nat.add_assoc, places, half]
          exact reach
      have up := divideToEven_carry (Nat.mul_pos pos (twoTo_pos t)) tight reach
      have pair : twoTo 53 = twoTo 52 + twoTo 52 := by decide
      rw [less, Nat.add_sub_cancel_left, up, least, pair, Nat.add_mul, Nat.one_mul]
      omega

theorem low_roundingInterval (x : Double) : x.roundingInterval.low
    = (4 * x.significand - if x.significand = twoTo 52 ∧ 0 < x.scale then 1 else 2) * twoTo x.scale := by
  rw [roundingInterval, Nat.sub_mul]
  split
  · rw [Nat.one_mul]
  · rfl

theorem high_roundingInterval (x : Double) :
    x.roundingInterval.high = (4 * x.significand + 2) * twoTo x.scale := by
  rw [roundingInterval, Nat.add_mul]

theorem RoundingInterval.contains_div {i : RoundingInterval} {num den : Nat} (pos : 0 < den) :
    i.Contains (num / den) ↔ if i.closed then i.low * den ≤ num * twoTo 1076 ∧ num * twoTo 1076 ≤ i.high * den
      else i.low * den < num * twoTo 1076 ∧ num * twoTo 1076 < i.high * den := by
  have pos : (0 : ℚ) < den := Nat.cast_pos.mpr pos
  rw [Contains, div_mul_eq_mul_div, le_div_iff₀ pos, div_le_iff₀ pos, lt_div_iff₀ pos, div_lt_iff₀ pos]
  simp only [← Nat.cast_mul, Nat.cast_le, Nat.cast_lt]

/-- What is in the interval of a double is rounded to the double. -/
theorem ofRatio_eq {x : Double} (finite : x.isFinite = true) (some : 0 < x.significand) {num den : Nat}
    (pos : 0 < den) (within : x.roundingInterval.Contains (num / den)) :
    ofRatio x.negative num den = x := by
  have quarters : num * twoTo 1076 = 4 * (num * twoTo 1074) := by
    rw [twoTo_1076, Nat.mul_left_comm]
  rw [RoundingInterval.contains_div pos, quarters, low_roundingInterval, high_roundingInterval, Nat.mul_assoc,
    Nat.mul_assoc, Nat.mul_comm (twoTo x.scale)] at within
  have cut : 4 * x.significand - 2
      ≤ 4 * x.significand - if x.significand = twoTo 52 ∧ 0 < x.scale then 1 else 2 := by split <;> omega
  have less := Nat.mul_le_mul_right (den * twoTo x.scale) cut
  have ends : (4 * x.significand - if x.significand = twoTo 52 ∧ 0 < x.scale then 1 else 2)
        * (den * twoTo x.scale) ≤ 4 * (num * twoTo 1074) ∧
      4 * (num * twoTo 1074) ≤ (4 * x.significand + 2) * (den * twoTo x.scale) := by
    split at within
    · exact within
    · exact ⟨within.1.le, within.2.le⟩
  have word := word_eq (n := num * twoTo 1074) pos some x.significand_lt le_significand (less.trans ends.1)
    (fun least scaled => by simpa only [if_pos (And.intro least scaled)] using ends.1) ends.2
    (fun odd => by
      rw [show x.roundingInterval.closed = (x.significand % 2 == 0) from rfl, if_neg (by simp [odd])] at within
      exact ⟨less.trans_lt within.1, within.2⟩)
  have range : x.scale * twoTo 52 + x.significand < infinityWord := by
    have bound := x.significand_lt
    have scale := Nat.mul_le_mul_right (twoTo 52) (scale_le finite)
    have infinity : infinityWord = 2045 * twoTo 52 + twoTo 53 := by decide
    omega
  rw [ofRatio, word, Nat.min_eq_left range.le, make_parts]

end Double

/-! ### Decimals -/

namespace Decimal

/-- The number that a numeral stands for, but for its sign. -/
def magnitude (d : Decimal) : ℚ := d.digits * 10 ^ d.exponent

theorem lt_tenTo_digitCount (n : Nat) : n < tenTo (digitCount n) :=
  (Nat.length_toDigits_le_iff (by decide) Nat.length_toDigits_pos).mp (Nat.le_refl _)

theorem tenTo_digitCount_le {n : Nat} (pos : 0 < n) : tenTo (digitCount n - 1) ≤ n := by
  refine Nat.le_of_not_lt fun less => ?_
  rcases Nat.eq_zero_or_pos (digitCount n - 1) with one | more
  · rw [one] at less
    exact Nat.lt_irrefl 0 (Nat.lt_of_lt_of_le pos (Nat.le_of_lt_succ less))
  · have short := (Nat.length_toDigits_le_iff (by decide) more).mpr less
    rw [← digitCount] at short
    omega

end Decimal

namespace Double

/-- A double is not below the power of ten of its leading place. -/
theorem leadingPlace_le {x : Double} (some : 0 < x.units) :
    (10 : ℚ) ^ x.leadingPlace * (twoTo 1076 : Nat) ≤ 4 * x.units := by
  have large : twoTo 1074 ≤ tenTo 324 := by decide +kernel
  have digit : 0 < x.units * tenTo 324 / twoTo 1074 :=
    Nat.div_pos (large.trans (Nat.le_mul_of_pos_left _ some)) (twoTo_pos 1074)
  have first := Decimal.tenTo_digitCount_le digit
  have whole := Nat.div_mul_le_self (x.units * tenTo 324) (twoTo 1074)
  have count : 0 < Decimal.digitCount (x.units * tenTo 324 / twoTo 1074) := Nat.length_toDigits_pos
  rw [leadingPlace]
  generalize x.units * tenTo 324 / twoTo 1074 = n at first whole count ⊢
  have place : (Decimal.digitCount n : Int) - 325 = (Decimal.digitCount n - 1 : Nat) - (324 : Nat) := by omega
  have product : (tenTo (Decimal.digitCount n - 1) * twoTo 1074 : ℚ) ≤ x.units * tenTo 324 := by
    exact_mod_cast (Nat.mul_le_mul_right _ first).trans whole
  rw [place, zpow_sub₀ (by norm_num), zpow_natCast, zpow_natCast, ← cast_tenTo, ← cast_tenTo, twoTo_1076,
    div_mul_eq_mul_div, div_le_iff₀ (Nat.cast_pos.mpr (tenTo_pos 324)), Nat.cast_mul]
  push_cast
  linarith

/-- The grid of seventeen digits is fine enough. -/
theorem exists_seventeen {x : Double} (some : 0 < x.significand) :
    ∃ c, x.roundingInterval.onStep? (x.leadingPlace - 16) = Option.some c := by
  have unit : (0 : ℚ) < (twoTo x.scale : Nat) := Nat.cast_pos.mpr (twoTo_pos _)
  have step : (10 : ℚ) ^ (x.leadingPlace - 16) * (twoTo 1076 : Nat) * 10 ^ 16
      ≤ 4 * x.significand * (twoTo x.scale : Nat) := by
    have least := leadingPlace_le (Nat.mul_pos some (twoTo_pos x.scale))
    rw [units, Nat.cast_mul, ← mul_assoc] at least
    rw [zpow_sub₀ (by norm_num)]
    refine le_of_eq_of_le ?_ least
    generalize ((twoTo 1076 : Nat) : ℚ) = unit
    field_simp
  have low : (x.roundingInterval.value : ℚ) - x.roundingInterval.low
      = (if x.significand = twoTo 52 ∧ 0 < x.scale then 1 else 2 : Nat) * (twoTo x.scale : Nat) := by
    have part : (if x.significand = twoTo 52 ∧ 0 < x.scale then 1 else 2) ≤ 4 * x.significand := by
      split <;> omega
    rw [low_roundingInterval, Nat.sub_mul, Nat.cast_sub (Nat.mul_le_mul_right _ part), ← Nat.cast_mul]
    exact sub_sub_cancel _ _
  have high : (x.roundingInterval.high : ℚ) - x.roundingInterval.value = 2 * (twoTo x.scale : Nat) := by
    rw [high_roundingInterval, Nat.add_mul, Nat.cast_add, Nat.cast_mul 2]
    exact add_sub_cancel_left _ _
  have most : (x.significand : ℚ) * (twoTo x.scale : Nat) ≤ 9007199254740992 * (twoTo x.scale : Nat) := by
    exact_mod_cast Nat.mul_le_mul_right _ x.significand_lt.le
  refine RoundingInterval.exists_onStep? ?_ (by rw [high]; linarith)
  rw [low]
  split
  · rename_i power
    have exactly : (x.significand : ℚ) = 4503599627370496 := by exact_mod_cast power.1
    rw [exactly] at step
    push_cast
    linarith
  · push_cast
    linarith

/-- If one of the grids that are tried has a point in the interval, such a point is found. -/
theorem RoundingInterval.contains_shortestFrom {i : RoundingInterval} {leading : Int} (tries n : Nat)
    (found : ∃ k < tries, ∃ c, i.onStep? (leading - (n + k : Nat) + 1) = some c) :
    i.Contains ((shortestFrom i leading tries n).1 * 10 ^ (shortestFrom i leading tries n).2) := by
  induction tries generalizing n with
  | zero =>
    obtain ⟨k, less, -⟩ := found
    exact absurd less (Nat.not_lt_zero k)
  | succ tries ih =>
    obtain ⟨k, less, c, found⟩ := found
    rw [shortestFrom]
    cases here : i.onStep? (leading - n + 1) with
    | some c => exact contains_of_onStep? here
    | none =>
      cases k with
      | zero => simp [here] at found
      | succ k => exact ih (n + 1) ⟨k, by omega, c, by rwa [Nat.add_right_comm, Nat.add_assoc]⟩

/-- The shortest digits round to the double. -/
theorem contains_shortest {x : Double} (some : 0 < x.significand) :
    x.roundingInterval.Contains x.shortest.magnitude := by
  have last : x.leadingPlace - (1 + 16 : Nat) + 1 = x.leadingPlace - 16 := by omega
  have seventeen : ∃ c, x.roundingInterval.onStep? (x.leadingPlace - (1 + 16 : Nat) + 1) = Option.some c := by
    rw [last]
    exact exists_seventeen some
  -- The pair is taken out as a whole: to compare its parts would mean to run the search.
  obtain ⟨found, shape, within⟩ : ∃ found : Nat × Int, x.shortest = ⟨x.negative, found.1, found.2⟩ ∧
      x.roundingInterval.Contains (found.1 * 10 ^ found.2) :=
    ⟨_, rfl, RoundingInterval.contains_shortestFrom 17 1 ⟨16, by decide, seventeen⟩⟩
  rw [shape]
  exact within

/-- No interval comes down to zero, and none goes up further than to `2 ^ 1024`. -/
theorem contains_bounds {x : Double} (finite : x.isFinite = true) (some : 0 < x.significand) {q : ℚ}
    (within : x.roundingInterval.Contains q) :
    2 ≤ q * (twoTo 1076 : Nat) ∧ q * (twoTo 1076 : Nat) ≤ (twoTo 2100 : Nat) := by
  have low : 2 ≤ x.roundingInterval.low := by
    have part : 2 ≤ 4 * x.significand - if x.significand = twoTo 52 ∧ 0 < x.scale then 1 else 2 := by
      split <;> omega
    rw [low_roundingInterval]
    exact part.trans (Nat.le_mul_of_pos_right _ (twoTo_pos _))
  have high : x.roundingInterval.high ≤ twoTo 2100 := by
    have bound := x.significand_lt
    have part : 4 * x.significand + 2 ≤ twoTo 55 := by
      have : twoTo 55 = 4 * twoTo 53 := by decide
      omega
    have scale : twoTo x.scale ≤ twoTo 2045 := twoTo_mono (scale_le finite)
    rw [high_roundingInterval, show (2100 : Nat) = 55 + 2045 from rfl, twoTo_add]
    exact Nat.mul_le_mul part scale
  have low : (2 : ℚ) ≤ x.roundingInterval.low := by exact_mod_cast low
  have high : (x.roundingInterval.high : ℚ) ≤ (twoTo 2100 : Nat) := Nat.cast_le.mpr high
  rw [RoundingInterval.Contains] at within
  split at within
  · exact ⟨low.trans within.1, within.2.trans high⟩
  · exact ⟨low.trans within.1.le, within.2.le.trans high⟩

end Double

namespace Decimal

open Double

/-- A numeral that is not zero is between two powers of ten. -/
theorem magnitude_bounds {d : Decimal} (some : 0 < d.digits) :
    (10 : ℚ) ^ (digitCount d.digits + d.exponent - 1) ≤ d.magnitude ∧
      d.magnitude < 10 ^ (digitCount d.digits + d.exponent) := by
  have count : 0 < digitCount d.digits := Nat.length_toDigits_pos
  have low : ((tenTo (digitCount d.digits - 1) : Nat) : ℚ) ≤ d.digits := Nat.cast_le.mpr (tenTo_digitCount_le some)
  have high : (d.digits : ℚ) < (tenTo (digitCount d.digits) : Nat) :=
    Nat.cast_lt.mpr (lt_tenTo_digitCount d.digits)
  have unit : (0 : ℚ) < 10 ^ d.exponent := zpow_pos (by norm_num) _
  rw [cast_tenTo, ← zpow_natCast] at low high
  rw [magnitude, show (digitCount d.digits + d.exponent - 1 : Int) = (digitCount d.digits - 1 : Nat) + d.exponent by
    omega, zpow_add₀ (by norm_num), zpow_add₀ (by norm_num)]
  exact ⟨mul_le_mul_of_nonneg_right low unit.le, mul_lt_mul_of_pos_right high unit⟩

theorem digits_pos {x : Double} (finite : x.isFinite = true) (some : 0 < x.significand) {d : Decimal}
    (within : x.roundingInterval.Contains d.magnitude) : 0 < d.digits := by
  refine Nat.pos_of_ne_zero fun zero => ?_
  obtain ⟨low, -⟩ := contains_bounds finite some within
  rw [magnitude, zero, Nat.cast_zero, zero_mul, zero_mul] at low
  norm_num at low

/-- Reading does not cut off the numerals in the interval of a double as too long or too small. -/
theorem places_bounds {x : Double} (finite : x.isFinite = true) (some : 0 < x.significand) {d : Decimal}
    (within : x.roundingInterval.Contains d.magnitude) :
    -330 < (digitCount d.digits : Int) + d.exponent ∧ (digitCount d.digits : Int) + d.exponent - 1 < 309 := by
  obtain ⟨low, high⟩ := contains_bounds finite some within
  obtain ⟨least, greatest⟩ := magnitude_bounds (digits_pos finite some within)
  have ten : (1 : ℚ) < 10 := by norm_num
  have unit : (0 : ℚ) < (twoTo 1076 : Nat) := Nat.cast_pos.mpr (twoTo_pos 1076)
  have small : (10 : ℚ) ^ (-330 : Int) * (twoTo 1076 : Nat) < 2 := by
    have whole : (0 : ℚ) < (tenTo 330 : Nat) := Nat.cast_pos.mpr (tenTo_pos 330)
    have above : ((twoTo 1076 : Nat) : ℚ) < (tenTo 330 * 2 : Nat) := Nat.cast_lt.mpr (by decide +kernel)
    rw [Nat.cast_mul, Nat.cast_ofNat] at above
    rwa [show (-330 : Int) = -(330 : Nat) from rfl, zpow_neg, zpow_natCast, ← cast_tenTo, inv_mul_lt_iff₀ whole]
  have large : ((twoTo 2100 : Nat) : ℚ) < 10 ^ (309 : Int) * (twoTo 1076 : Nat) := by
    rw [show (309 : Int) = (309 : Nat) from rfl, zpow_natCast, ← cast_tenTo, ← Nat.cast_mul]
    exact Nat.cast_lt.mpr (by decide +kernel)
  have above := lt_of_mul_lt_mul_right (small.trans_le low) unit.le
  have below := lt_of_mul_lt_mul_right (high.trans_lt large) unit.le
  exact ⟨(zpow_lt_zpow_iff_right₀ ten).mp (above.trans greatest),
    (zpow_lt_zpow_iff_right₀ ten).mp (least.trans_lt below)⟩

/-- A numeral in the interval of a double is read as the double. -/
theorem toDouble_eq {x : Double} (finite : x.isFinite = true) (some : 0 < x.significand) {d : Decimal}
    (sign : d.negative = x.negative) (within : x.roundingInterval.Contains d.magnitude) : d.toDouble = x := by
  have digits := digits_pos finite some within
  obtain ⟨small, large⟩ := places_bounds finite some within
  rw [toDouble, if_neg digits.ne', if_neg (by omega), if_neg (by omega), sign]
  rw [magnitude] at within
  cases power : d.exponent with
  | ofNat e =>
    refine ofRatio_eq finite some one_pos ?_
    rw [power] at within
    convert within using 1
    rw [Nat.cast_mul, cast_tenTo, Nat.cast_one, div_one]
    rfl
  | negSucc e =>
    refine ofRatio_eq finite some (tenTo_pos (e + 1)) ?_
    rw [power] at within
    convert within using 1
    rw [cast_tenTo, zpow_negSucc, div_eq_mul_inv]

end Decimal

end Flowgraph
