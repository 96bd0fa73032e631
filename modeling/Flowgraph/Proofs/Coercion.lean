import Flowgraph.Json.Print
import Flowgraph.Proofs.Numeral
import Flowgraph.Proofs.PolicyNumbers
import Flowgraph.Proofs.Rounding
import Flowgraph.Proofs.Text
import Mathlib.Data.List.Forall2

/-! What coercion makes of a value. Whatever it gives has the form of the type and is left alone by a second
    coercion. A text made a list gives its parts between commas. A whole number that 64 bits hold comes out as it
    is, as a number and as text; of the greater ones those that a double takes for `2 ^ 63` come out as the
    greatest whole number of 64 bits. -/

namespace Flowgraph.Coercion

open Json PolicyNumbers

/-! ### Coercing again -/

theorem toInteger?_int {n : Int} (range : int64Min ≤ n ∧ n ≤ int64Max) :
    toInteger? (.num (.int n)) = some n := if_pos range

/-- The form of a type: a finite double, a whole number of 64 bits, a flag, and for a list all but text. Strings,
    objects and what has no type may be anything. -/
def HasForm (type : ParamType) (v : Value) : Prop :=
  match type with
  | .number => ∃ x : Double, v = .num (.float x) ∧ x.isFinite = true
  | .integer => ∃ n : Int, v = .int n ∧ int64Min ≤ n ∧ n ≤ int64Max
  | .boolean => ∃ b : Bool, v = .bool b
  | .array => ∀ s : String, v ≠ .str s
  | .string | .object | .any => True

/-- What has been coerced to a type has its form. -/
theorem hasForm_of_coerce {v w : Value} {type : ParamType} (h : coerce v type = .ok w) :
    HasForm type w := by
  cases type with
  | string | object | any => trivial
  | number =>
    rw [coerce] at h
    cases number : toDouble? v with
    | none => simp [number] at h
    | some x =>
      simp only [number] at h
      cases h
      exact ⟨x, rfl, (Option.filter_eq_some_iff.mp number).2⟩
  | integer =>
    rw [coerce] at h
    cases whole : toInteger? v with
    | none => simp [whole] at h
    | some n =>
      simp only [whole] at h
      cases h
      exact ⟨n, rfl, toInteger?_range whole⟩
  | boolean =>
    cases h
    exact ⟨truthy v, rfl⟩
  | array =>
    cases h
    intro s
    cases v <;> simp

/-- What has the form of a type is left as it is. -/
theorem coerce_of_hasForm {v : Value} {type : ParamType} (h : HasForm type v) : coerce v type = .ok v := by
  cases type with
  | string | object | any => rfl
  | number =>
    obtain ⟨x, rfl, finite⟩ := h
    simp [coerce, toDouble?, numberToDouble, Option.filter, finite]
  | integer =>
    obtain ⟨n, rfl, range⟩ := h
    simp only [coerce, Value.int, toInteger?_int range]
  | boolean =>
    obtain ⟨b, rfl⟩ := h
    rfl
  | array =>
    cases v with
    | str s => exact absurd rfl (h s)
    | null | bool _ | num _ | arr _ | obj _ => rfl

/-- What has been coerced to a type is left as it is by coercion to this type. -/
theorem coerce_of_coerce {v w : Value} {type : ParamType} (h : coerce v type = .ok w) :
    coerce w type = .ok w :=
  coerce_of_hasForm (hasForm_of_coerce h)

/-! ### Lists written with commas -/

/-- The parts are the stretches of a text between its commas, in order, each without the blanks at its ends,
    and those left out of which nothing is left. -/
def Lists (s : String) (parts : List String) : Prop :=
  ∃ stretches trimmed : List (List Char),
    stretches ≠ [] ∧ List.intercalate [','] stretches = s.toList ∧ (∀ p ∈ stretches, ',' ∉ p) ∧
      List.Forall₂ Text.Trims stretches trimmed ∧ parts.map String.toList = trimmed.filter (· ≠ [])

theorem toList_commaParts (s : String) :
    (commaParts s).map String.toList
      = ((Text.splitChars ',' s.toList).map Text.trimChars).filter (!·.isEmpty) := by
  simp [commaParts]

theorem lists_commaParts (s : String) : Lists s (commaParts s) := by
  refine ⟨Text.splitChars ',' s.toList, (Text.splitChars ',' s.toList).map Text.trimChars,
    Text.splitChars_ne_nil _ _, Text.intercalate_splitChars _ _, ?_, ?_, ?_⟩
  · intro p mem
    exact Text.not_mem_of_mem_splitChars mem
  · refine List.forall₂_map_right_iff.mpr (List.forall₂_same.mpr fun p _ => ?_)
    exact Text.trims_trimChars p
  · rw [toList_commaParts]
    refine List.filter_congr fun p _ => ?_
    cases p <;> rfl

theorem comma_not_mem_commaParts {s p : String} (mem : p ∈ commaParts s) : ',' ∉ p.toList := by
  have listed : p.toList ∈ (commaParts s).map String.toList := List.mem_map_of_mem mem
  rw [toList_commaParts, List.mem_filter, List.mem_map] at listed
  obtain ⟨⟨q, stretch, same⟩, -⟩ := listed
  rw [← same]
  intro comma
  exact Text.not_mem_of_mem_splitChars stretch (Text.trimChars_subset q comma)

/-- The parts joined with commas have the same parts again. -/
theorem commaParts_intercalate (s : String) :
    commaParts (String.intercalate "," (commaParts s)) = commaParts s := by
  by_cases none_there : commaParts s = []
  · rw [none_there]
    rfl
  · have free : ∀ p ∈ (commaParts s).map String.toList, ',' ∉ p := by
      intro p mem
      obtain ⟨q, listed, rfl⟩ := List.mem_map.mp mem
      exact comma_not_mem_commaParts listed
    have trimmed : ∀ p ∈ (commaParts s).map String.toList, Text.trimChars p = p ∧ !p.isEmpty := by
      intro p mem
      rw [toList_commaParts, List.mem_filter, List.mem_map] at mem
      obtain ⟨⟨q, -, rfl⟩, left⟩ := mem
      exact ⟨Text.trimChars_trimChars q, left⟩
    have letters : ",".toList = [','] := rfl
    apply List.map_injective_iff.mpr fun _ _ => String.toList_injective
    rw [toList_commaParts, String.toList_intercalate, letters,
      Text.splitChars_intercalate (by simpa using none_there) free,
      List.map_congr_left fun p mem => (trimmed p mem).1, List.map_id',
      List.filter_eq_self.mpr fun p mem => (trimmed p mem).2]

/-- Coercion settles a value: what it gives has the form of the type and does not change any more. A text
    made a list has in it what the text lists, and these parts joined with commas give the same list. -/
theorem coerce_settles :
    (∀ (v w : Value) (type : ParamType), coerce v type = .ok w →
      coerce w type = .ok w ∧ HasForm type w) ∧
    ∀ s : String, ∃ parts : List String,
      Lists s parts ∧ (∀ p ∈ parts, ',' ∉ p.toList) ∧
      coerce (.str s) .array = .ok (.arr (parts.map .str)) ∧
      coerce (.str (String.intercalate "," parts)) .array = .ok (.arr (parts.map .str)) := by
  refine ⟨fun v w type made => ⟨coerce_of_coerce made, hasForm_of_coerce made⟩, fun s => ?_⟩
  refine ⟨commaParts s, lists_commaParts s, fun p => comma_not_mem_commaParts, rfl, ?_⟩
  rw [coerce, commaParts_intercalate]

/-- A numeral with blanks around it, and a list with blanks and an empty part. -/
theorem coerce_settles_loose :
    coerce (.str " 9.5 ") .integer = .error ⟨"integer", .str " 9.5 "⟩ ∧
      coerce (.str " 12 ") .integer = .ok (.int 12) ∧
      coerce (.int 12) .integer = .ok (.int 12) ∧
      coerce (.str "a, b c,, ") .array = .ok (.arr [.str "a", .str "b c"]) ∧
      coerce (.arr [.str "a", .str "b c"]) .array = .ok (.arr [.str "a", .str "b c"]) := by
  have whole : coerce (.str " 12 ") .integer = .ok (.int 12) := by decide +kernel
  have listed : coerce (.str "a, b c,, ") .array = .ok (.arr [.str "a", .str "b c"]) := by decide +kernel
  exact ⟨by decide +kernel, whole, (coerce_settles.1 _ _ _ whole).1, listed,
    (coerce_settles.1 _ _ _ listed).1⟩

/-! ### Whole numbers and their texts -/

/-- A whole number beyond 64 bits with a sign is taken for `2 ^ 63` if it is nearer to it than to the next
    double, or in the middle. -/
theorem wholePart?_ofInt {n : Nat} (low : int64Max < n) (high : n ≤ uint64Max) :
    wholePart? (Double.ofInt n) = if (n : Int) ≤ int64Max + 1025 then some int64Max else none := by
  have least : int64Max + 1 = (twoTo 52 * twoTo 11 : Nat) := rfl
  have most : uint64Max + 1 = twoTo (53 + 11) := rfl
  have middle : int64Max + 1025 + (int64Max + 1025) = ((2 * twoTo 52 + 1) * twoTo 11 : Nat) := rfl
  have even : twoTo 52 % 2 = 0 := rfl
  have pos := twoTo_pos 11
  obtain ⟨finite, truncated⟩ := Double.truncate_ofInt (n := n) (e := 11)
    (by rw [twoTo_add]; omega) (by omega) (by decide)
  have above := Double.le_divideToEven (a := n) (q := twoTo 52) pos (by omega)
  have near := Double.divideToEven_le_iff n pos (twoTo 52)
  generalize Double.divideToEven n (twoTo 11) = q at truncated above near
  rw [wholePart?, finite, truncated]
  by_cases down : q ≤ twoTo 52
  · obtain rfl : q = twoTo 52 := Nat.le_antisymm down above
    rw [if_pos (by decide), if_pos (by omega)]
    rfl
  · have more : (twoTo 52 + 1) * twoTo 11 ≤ q * twoTo 11 := Nat.mul_le_mul_right _ (by omega)
    rw [Nat.add_mul, Nat.one_mul] at more
    have far : ¬(q : Int) * (twoTo 11 : Int) ≤ int64Max + 1 := by
      rw [← Int.natCast_mul]
      omega
    rw [if_neg (by simp [far]), if_neg (by omega)]

theorem coerce_integer_int {n : Int} (low : int64Min ≤ n) (high : n ≤ uint64Max) :
    coerce (.int n) .integer
      = if n ≤ int64Max + 1025 then .ok (.int (min n int64Max)) else .error ⟨"integer", .int n⟩ := by
  rcases Int.lt_or_le int64Max n with beyond | fits
  · obtain ⟨m, rfl⟩ := Int.eq_ofNat_of_zero_le (Int.le_trans (by decide) (Int.le_of_lt beyond))
    have whole : toInteger? (.num (.int m)) = wholePart? (Double.ofInt m) :=
      if_neg fun range => Int.not_le.mpr beyond range.2
    rw [Int.min_eq_right (Int.le_of_lt beyond)]
    simp only [coerce, Value.int, whole, wholePart?_ofInt beyond (Int.ofNat_le.mp high)]
    by_cases near : (m : Int) ≤ int64Max + 1025
    · rw [if_pos near, if_pos near]
    · rw [if_neg near, if_neg near]
  · rw [if_pos (by omega), Int.min_eq_left fits]
    simp only [coerce, Value.int, toInteger?_int ⟨low, fits⟩]

theorem coerce_integer_text (n : Int) :
    coerce (.str (Number.text (.int n))) .integer
      = if int64Min ≤ n ∧ n ≤ int64Max then .ok (.int n)
        else .error ⟨"integer", .str (Number.text (.int n))⟩ := by
  have text : (Number.text (.int n)).toList = n.repr.toList := rfl
  have read : toInteger? (.str (Number.text (.int n)))
      = if int64Min ≤ n ∧ n ≤ int64Max then some n else none := by
    rw [toInteger?, text, Numeral.trimChars_repr, Numeral.int64?_repr]
  by_cases range : int64Min ≤ n ∧ n ≤ int64Max
  · rw [if_pos range] at read ⊢
    simp only [coerce, read, Value.int]
  · rw [if_neg range] at read ⊢
    simp only [coerce, read]

/-- Coercion of a whole number is faithful: it succeeds just if 64 bits hold the number, gives the number
    itself, and comes to the same as coercion of its decimal text. -/
structure Faithful (n : Int) : Prop where
  accepts : (∃ w, coerce (.int n) .integer = .ok w) ↔ n ≤ int64Max
  keeps : ∀ w, coerce (.int n) .integer = .ok w → w = .int n
  asText : (coerce (.int n) .integer).toOption
    = (coerce (.str (Number.text (.int n))) .integer).toOption

/-- Coercion of a whole number is faithful but for the 1025 numbers from `2 ^ 63` on that are nearest to it
    among the doubles. Each of these is accepted and becomes the greatest whole number of 64 bits. -/
theorem faithful_iff (n : Int) (low : int64Min ≤ n) (high : n ≤ uint64Max) :
    (Faithful n ↔ n ≤ int64Max ∨ int64Max + 1025 < n) ∧
      (int64Max < n → n ≤ int64Max + 1025 → coerce (.int n) .integer = .ok (.int int64Max)) := by
  have number := coerce_integer_int low high
  have text := coerce_integer_text n
  refine ⟨⟨fun faithful => ?_, ?_⟩, fun beyond near => ?_⟩
  · by_contra gap
    rw [not_or, Int.not_le, Int.not_lt] at gap
    rw [if_pos gap.2] at number
    exact absurd (faithful.accepts.mp ⟨_, number⟩) (Int.not_le.mpr gap.1)
  · rintro (fits | far)
    · rw [if_pos (by omega), Int.min_eq_left fits] at number
      rw [if_pos ⟨low, fits⟩] at text
      refine ⟨iff_of_true ⟨_, number⟩ fits, fun w same => ?_, by rw [number, text]⟩
      exact Except.ok.inj (same.symm.trans number)
    · rw [if_neg (by omega)] at number
      rw [if_neg (by omega)] at text
      refine ⟨iff_of_false ?_ (by omega), fun w same => ?_, by rw [number, text]; rfl⟩
      · rintro ⟨w, same⟩
        cases same.symm.trans number
      · cases same.symm.trans number
  · rw [number, if_pos near, Int.min_eq_right (Int.le_of_lt beyond)]

/-- At both ends of the gap. -/
theorem faithful_iff_boundary :
    Faithful int64Max ∧ ¬Faithful (int64Max + 1) ∧ ¬Faithful (int64Max + 1025) ∧
      Faithful (int64Max + 1026) := by
  have first := faithful_iff (int64Max + 1) (by decide) (by decide)
  have last := faithful_iff (int64Max + 1025) (by decide) (by decide)
  refine ⟨(faithful_iff int64Max (by decide) (by decide)).1.mpr (by decide), fun faithful => ?_,
    fun faithful => ?_, (faithful_iff (int64Max + 1026) (by decide) (by decide)).1.mpr (by decide)⟩
  · exact absurd (first.1.mp faithful) (by decide)
  · exact absurd (last.1.mp faithful) (by decide)

/-- The least number that 64 bits do not hold is accepted as a number, becomes its neighbour, and is refused
    as text. -/
theorem coerce_clamps_least_beyond :
    coerce (.int 9223372036854775808) .integer = .ok (.int 9223372036854775807) ∧
      (coerce (.str "9223372036854775808") .integer).toOption = none ∧
      ¬Faithful 9223372036854775808 := by
  have clamped : coerce (.int 9223372036854775808) .integer = .ok (.int 9223372036854775807) := by
    decide +kernel
  refine ⟨clamped, by decide +kernel, fun faithful => ?_⟩
  exact absurd (faithful.keeps _ clamped) (by decide)

end Flowgraph.Coercion
