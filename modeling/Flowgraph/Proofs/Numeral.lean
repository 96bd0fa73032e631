import Flowgraph.Number.Numeral
import Flowgraph.Text.Blank
import Mathlib.Data.List.TakeWhile

/-! Numerals as texts. A numeral of a natural number is one of a whole number of 64 bits if these hold it, and
    no numeral has a brace in it. -/

namespace Flowgraph

/-- What is not blank stays when blanks are trimmed. -/
theorem Text.mem_trimChars {c : Char} {cs : List Char} (there : c ∈ cs)
    (solid : Text.isBlank c = false) : c ∈ Text.trimChars cs := by
  have stays {xs : List Char} (mem : c ∈ xs) : c ∈ xs.dropWhile Text.isBlank := by
    rw [← List.takeWhile_append_dropWhile (p := Text.isBlank) (l := xs), List.mem_append] at mem
    refine mem.resolve_left fun front => ?_
    simp [List.mem_takeWhile_imp front] at solid
  rw [trimChars, List.mem_reverse]
  exact stays (List.mem_reverse.mpr (stays there))

theorem Text.trimChars_of_solid {cs : List Char} (solid : ∀ c ∈ cs, Text.isBlank c = false) :
    Text.trimChars cs = cs := by
  have stays {xs : List Char} (solid : ∀ c ∈ xs, Text.isBlank c = false) :
      xs.dropWhile Text.isBlank = xs := by
    cases xs with
    | nil => rfl
    | cons c xs => rw [List.dropWhile_cons_of_neg (by simp [solid c List.mem_cons_self])]
  rw [trimChars, stays solid, stays fun c mem => solid c (List.mem_reverse.mp mem), List.reverse_reverse]

namespace Numeral

/-! ### Whole numbers -/

theorem le_of_digitsFrom {max n m : Nat} {cs : List Char} (h : digitsFrom max n cs = .ok m) :
    n ≤ m := by
  induction cs generalizing n with
  | nil => cases h; exact Nat.le_refl _
  | cons c cs ih =>
    rw [digitsFrom] at h
    split at h
    · cases h
    · split at h
      · cases h
      · exact Nat.le_trans (by omega) (ih h)

/-- A bound that holds for the number holds all along. -/
theorem digitsFrom_of_le {max max' n m : Nat} {cs : List Char} (h : digitsFrom max n cs = .ok m)
    (le : m ≤ max') : digitsFrom max' n cs = .ok m := by
  induction cs generalizing n with
  | nil => exact h
  | cons c cs ih =>
    rw [digitsFrom] at h ⊢
    split at h
    · cases h
    · rename_i digit
      split at h
      · cases h
      · have small := Nat.le_trans (le_of_digitsFrom h) le
        rw [if_neg digit, if_neg (by omega), ih h]

theorem digits_of_le {max max' m : Nat} {cs : List Char} (h : digits max cs = .ok m)
    (le : m ≤ max') : digits max' cs = .ok m := by
  cases cs with
  | nil => cases h
  | cons c cs => exact digitsFrom_of_le h le

theorem digitsFrom_le {max n m : Nat} {cs : List Char} (h : digitsFrom max n cs = .ok m)
    (start : n ≤ max) : m ≤ max := by
  induction cs generalizing n with
  | nil => cases h; exact start
  | cons c cs ih =>
    rw [digitsFrom] at h
    split at h
    · cases h
    · split at h
      · cases h
      · exact ih h (by omega)

theorem digits_le {max m : Nat} {cs : List Char} (h : digits max cs = .ok m) : m ≤ max := by
  cases cs with
  | nil => cases h
  | cons c cs => exact digitsFrom_le h (Nat.zero_le max)

/-- A number is read under another bound just if it keeps to that one too. -/
theorem toOption_digits {max max' m : Nat} {cs : List Char} (h : digits max cs = .ok m) :
    (digits max' cs).toOption = if m ≤ max' then some m else none := by
  split
  · rename_i le
    rw [digits_of_le h le]
    rfl
  · rename_i more
    cases other : digits max' cs with
    | error _ => rfl
    | ok k =>
      have small := digits_le other
      have large := digits_le h
      cases h.symm.trans (digits_of_le other (by omega))
      exact absurd small more

/-- A natural number is read alike as a whole number, if 64 bits with a sign hold it. -/
theorem int64?_of_natural {max n : Nat} {cs : List Char} (h : natural max cs = .ok n) :
    int64? cs = if (n : Int) ≤ int64Max then some (n : Int) else none := by
  have bound : n ≤ int64Max.natAbs ↔ (n : Int) ≤ int64Max := by
    have same : (int64Max.natAbs : Int) = int64Max := rfl
    omega
  have whole {ds : List Char} (h : digits max ds = .ok n) :
      ((digits int64Max.natAbs ds).toOption).map (fun n => (n : Int))
        = if (n : Int) ≤ int64Max then some (n : Int) else none := by
    rw [toOption_digits h]
    simp only [bound]
    split <;> rfl
  unfold natural at h
  split at h
  · cases h
  · exact whole h
  · rename_i other
    unfold int64?
    split
    · simp [digits, digitsFrom, isDigit] at h
    · exact absurd rfl (other _)
    · exact whole h

/-! ### Decimal digits -/

theorem valueFrom_eq (n : Nat) (cs : List Char) : valueFrom n cs = Nat.ofDigitChars 10 cs n := by
  simp only [valueFrom, Nat.ofDigitChars, Nat.mul_comm 10]
  rfl

theorem le_valueFrom (n : Nat) (cs : List Char) : n ≤ valueFrom n cs := by
  induction cs generalizing n with
  | nil => exact Nat.le_refl n
  | cons c cs ih => exact Nat.le_trans (by omega) (ih (n * 10 + digitValue c))

/-- A row of digits is read as the number it stands for, if that is within the bound. -/
theorem digitsFrom_of_isDigit {max n : Nat} {cs : List Char} (all : ∀ c ∈ cs, isDigit c = true)
    (start : n ≤ max) :
    digitsFrom max n cs
      = if valueFrom n cs ≤ max then .ok (valueFrom n cs) else .error .tooLarge := by
  induction cs generalizing n with
  | nil => exact (if_pos start).symm
  | cons c cs ih =>
    obtain ⟨digit, rest⟩ := List.forall_mem_cons.mp all
    have step : valueFrom n (c :: cs) = valueFrom (n * 10 + digitValue c) cs := rfl
    have grows := le_valueFrom (n * 10 + digitValue c) cs
    rw [digitsFrom, digit, step]
    by_cases large : max < n * 10 + digitValue c
    · simp [large, Nat.lt_of_lt_of_le large grows]
    · simp [large, ih rest (Nat.le_of_not_lt large)]

theorem isDigit_iff {c : Char} :
    isDigit c = true ↔ '0'.toNat ≤ c.toNat ∧ c.toNat ≤ '9'.toNat := by
  rw [isDigit, Bool.and_eq_true, decide_eq_true_eq, decide_eq_true_eq]
  exact Iff.rfl

/-- A row of digits ends where no digit follows. -/
theorem takeWhile_digits {ds : List Char} (rest : List Char) (digits : ∀ c ∈ ds, isDigit c = true)
    (stop : rest.takeWhile isDigit = []) :
    (ds ++ rest).takeWhile isDigit = ds ∧ (ds ++ rest).dropWhile isDigit = rest := by
  have whole := List.takeWhile_append_dropWhile (p := isDigit) (l := rest)
  rw [stop, List.nil_append] at whole
  rw [List.takeWhile_append_of_pos digits, List.dropWhile_append_of_pos digits, stop, List.append_nil, whole]
  exact ⟨rfl, rfl⟩

theorem isDigit_of_mem_toDigits {n : Nat} {c : Char} (mem : c ∈ Nat.toDigits 10 n) :
    isDigit c = true :=
  isDigit_iff.mpr (Char.isDigit_iff_toNat.mp (Nat.isDigit_of_mem_toDigits (by decide) (by decide) mem))

theorem valueFrom_toDigits (n : Nat) : valueFrom 0 (Nat.toDigits 10 n) = n := by
  rw [valueFrom_eq, Nat.ofDigitChars_ten_toDigits]

theorem digits_toDigits (max n : Nat) :
    digits max (Nat.toDigits 10 n) = if n ≤ max then .ok n else .error .tooLarge := by
  have read := digitsFrom_of_isDigit (fun _ => isDigit_of_mem_toDigits (n := n)) (Nat.zero_le max)
  rw [valueFrom_toDigits] at read
  cases cs : Nat.toDigits 10 n with
  | nil => exact absurd cs Nat.toDigits_ne_nil
  | cons c rest => rwa [cs] at read

/-- The decimal text of a whole number is read as the number, if 64 bits hold it. -/
theorem int64?_repr (n : Int) :
    int64? n.repr.toList = if int64Min ≤ n ∧ n ≤ int64Max then some n else none := by
  have least : int64Min = -(int64Min.natAbs : Int) := rfl
  have greatest : int64Max = (int64Max.natAbs : Int) := rfl
  rw [Int.repr_eq_if]
  split
  · rename_i natural
    have plain : ∀ c ∈ Nat.toDigits 10 n.toNat, c ≠ '-' ∧ c ≠ '+' := by
      intro c mem
      have digit := isDigit_of_mem_toDigits mem
      constructor <;> rintro rfl <;> simp [isDigit] at digit
    have unsigned : int64? (Nat.toDigits 10 n.toNat)
        = ((digits int64Max.natAbs (Nat.toDigits 10 n.toNat)).toOption).map fun m => (m : Int) := by
      unfold int64?
      split
      · rename_i front
        exact absurd rfl (plain '-' (front ▸ List.mem_cons_self)).1
      · rename_i front
        exact absurd rfl (plain '+' (front ▸ List.mem_cons_self)).2
      · rfl
    rw [Nat.toList_repr, unsigned, digits_toDigits]
    by_cases fits : n.toNat ≤ int64Max.natAbs
    · rw [if_pos fits, if_pos (by omega)]
      exact congrArg some (Int.toNat_of_nonneg natural)
    · rw [if_neg fits, if_neg (by omega)]
      rfl
  · rename_i negative
    have front : ("-" ++ (-n).toNat.repr).toList = '-' :: Nat.toDigits 10 (-n).toNat := by
      rw [String.toList_append, Nat.toList_repr]
      rfl
    rw [front, int64?, digits_toDigits]
    by_cases fits : (-n).toNat ≤ int64Min.natAbs
    · rw [if_pos fits, if_pos (by omega)]
      have back : -((-n).toNat : Int) = n := by omega
      exact congrArg some back
    · rw [if_neg fits, if_neg (by omega)]
      rfl

/-- The decimal text of a whole number is made of digits and perhaps a sign. -/
theorem sign_or_isDigit_of_mem_repr {n : Int} {c : Char} (mem : c ∈ n.repr.toList) :
    c = '-' ∨ isDigit c = true := by
  rw [Int.repr_eq_if] at mem
  split at mem
  · rw [Nat.toList_repr] at mem
    exact .inr (isDigit_of_mem_toDigits mem)
  · rw [String.toList_append, Nat.toList_repr] at mem
    rcases List.mem_append.mp mem with sign | digit
    · exact .inl (by simpa using sign)
    · exact .inr (isDigit_of_mem_toDigits digit)

theorem isBlank_of_isDigit {c : Char} (digit : isDigit c = true) : Text.isBlank c = false := by
  have bounds := isDigit_iff.mp digit
  have zero : '0'.toNat = 48 := rfl
  have nine : '9'.toNat = 57 := rfl
  simp only [Text.isBlank, Bool.or_eq_false_iff, Bool.and_eq_false_iff, decide_eq_false_iff_not,
    beq_eq_false_iff_ne]
  omega

theorem trimChars_repr (n : Int) : Text.trimChars n.repr.toList = n.repr.toList := by
  refine Text.trimChars_of_solid fun c mem => ?_
  rcases sign_or_isDigit_of_mem_repr mem with rfl | digit
  · decide
  · exact isBlank_of_isDigit digit

/-! ### No braces -/

theorem isDigit_of_digitsFrom {max n m : Nat} {cs : List Char} (h : digitsFrom max n cs = .ok m) :
    ∀ c ∈ cs, isDigit c = true := by
  induction cs generalizing n with
  | nil => simp
  | cons c cs ih =>
    rw [digitsFrom] at h
    split at h
    · cases h
    · rename_i digit
      split at h
      · cases h
      · exact List.forall_mem_cons.mpr ⟨by simpa using digit, ih h⟩

theorem brace_not_mem_of_digits {cs : List Char} (h : ∀ c ∈ cs, isDigit c = true) : '{' ∉ cs :=
  fun brace => absurd (h _ brace) (by decide)

theorem brace_not_mem_repr (n : Int) : '{' ∉ n.repr.toList := by
  intro brace
  rcases sign_or_isDigit_of_mem_repr brace with sign | digit
  · exact absurd sign (by decide)
  · exact absurd digit (by decide)

theorem brace_not_mem_of_natural {max n : Nat} {cs : List Char} (h : natural max cs = .ok n) :
    '{' ∉ cs := by
  have row {cs : List Char} (h : digits max cs = .ok n) : '{' ∉ cs := by
    cases cs with
    | nil => cases h
    | cons c cs => exact brace_not_mem_of_digits (isDigit_of_digitsFrom h)
  unfold natural at h
  split at h
  · cases h
  · simp [row h]
  · exact row h

theorem brace_not_mem_of_exponent? {cs : List Char} {e : Int} (h : exponent? cs = some e) :
    '{' ∉ cs := by
  unfold exponent? at h
  split at h
  · simp
  · rename_i mark cs
    split at h
    · cases h
    · rename_i marked
      have first : '{' ≠ mark := by
        rintro rfl
        exact marked (by decide)
      have row {ds : List Char} (digits : ¬(ds.isEmpty || !ds.all isDigit) = true) : '{' ∉ ds := by
        rw [Bool.or_eq_true, not_or] at digits
        exact brace_not_mem_of_digits (List.all_eq_true.mp (by simpa using digits.2))
      refine List.not_mem_cons_of_ne_of_not_mem first ?_
      split at h
      rename_i signed
      split at h
      · cases h
      · rename_i digits
        have plain := row digits
        split at signed <;> cases signed <;> simpa using plain

theorem brace_not_mem_of_unsignedDecimal? {negative : Bool} {cs : List Char} {d : Decimal}
    (h : unsignedDecimal? negative cs = some d) : '{' ∉ cs := by
  have split_off {cs : List Char} (rest : '{' ∉ cs.dropWhile isDigit) : '{' ∉ cs := by
    rw [← List.takeWhile_append_dropWhile (p := isDigit) (l := cs), List.mem_append, not_or]
    exact ⟨fun front => absurd (List.mem_takeWhile_imp front) (by decide), rest⟩
  unfold unsignedDecimal? at h
  dsimp only at h
  apply split_off
  split at h
  · rename_i after same
    split at h
    · cases h
    · obtain ⟨e, tail, -⟩ := Option.map_eq_some_iff.mp h
      rw [same]
      exact List.not_mem_cons_of_ne_of_not_mem (by decide)
        (split_off (brace_not_mem_of_exponent? tail))
  · split at h
    · cases h
    · obtain ⟨e, tail, -⟩ := Option.map_eq_some_iff.mp h
      exact brace_not_mem_of_exponent? tail

theorem brace_not_mem_of_wordValue? {negative : Bool} {cs : List Char} {x : Double}
    (h : wordValue? negative cs = some x) : '{' ∉ cs := by
  intro brace
  have there : '{' ∈ (String.ofList (cs.map Char.toLower)).toList := by
    rw [String.toList_ofList]
    exact List.mem_map.mpr ⟨'{', brace, by decide⟩
  rw [wordValue?] at h
  split at h
  · rename_i word
    rcases word with word | word <;> rw [word] at there <;> revert there <;> decide
  · split at h
    · rename_i word
      rw [word] at there
      revert there
      decide
    · cases h

theorem brace_not_mem_of_double {cs : List Char} {x : Double} (h : double cs = .ok x) :
    '{' ∉ cs := by
  unfold double at h
  split at h
  · cases h
  · split at h
    rename_i negative body signed
    have plain : '{' ∉ body := by
      split at h
      · rename_i word
        exact brace_not_mem_of_wordValue? word
      · split at h
        · rename_i decimal
          exact brace_not_mem_of_unsignedDecimal? decimal
        · cases h
    split at signed <;> cases signed <;> simpa using plain

end Numeral

end Flowgraph
