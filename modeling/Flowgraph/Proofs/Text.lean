import Flowgraph.Text.Blank
import Flowgraph.Text.Split
import Mathlib.Data.List.DropRight
import Mathlib.Data.List.Infix

/-! Text cut at a separator, text without the blanks at its ends, and text that occurs in other text. Cutting and
    joining undo each other, what is left between the blanks is one stretch of the text, and to occur means to
    be a stretch of it. -/

namespace Flowgraph.Text

/-! ### Cutting -/

theorem splitChars_eq_splitOn (sep : Char) (cs : List Char) : splitChars sep cs = cs.splitOn sep := by
  induction cs with
  | nil => rfl
  | cons c cs ih =>
    rw [splitChars, ih, List.splitOn_eq_splitOnP, List.splitOn_eq_splitOnP,
      List.splitOnP_cons_eq_if_modifyHead]
    by_cases here : c = sep
    · simp [here]
    · rw [if_neg here, if_neg (by simpa using here)]
      cases parts : List.splitOnP (· == sep) cs with
      | nil => exact absurd parts (List.splitOnP_ne_nil _ _)
      | cons part parts => rfl

theorem intercalate_splitChars (sep : Char) (cs : List Char) :
    List.intercalate [sep] (splitChars sep cs) = cs := by
  rw [splitChars_eq_splitOn, List.intercalate_splitOn]

theorem splitChars_intercalate {sep : Char} {parts : List (List Char)} (some_there : parts ≠ [])
    (free : ∀ p ∈ parts, sep ∉ p) : splitChars sep (List.intercalate [sep] parts) = parts := by
  rw [splitChars_eq_splitOn, List.splitOn_intercalate sep free some_there]

theorem splitChars_ne_nil (sep : Char) (cs : List Char) : splitChars sep cs ≠ [] := by
  rw [splitChars_eq_splitOn]
  exact List.splitOn_ne_nil sep cs

/-- No stretch between separators holds one. -/
theorem not_mem_of_mem_splitChars {sep : Char} {cs p : List Char} (mem : p ∈ splitChars sep cs) :
    sep ∉ p := by
  induction cs generalizing p with
  | nil =>
    rcases List.mem_singleton.mp mem with rfl
    exact List.not_mem_nil
  | cons c cs ih =>
    rw [splitChars] at mem
    by_cases here : c = sep
    · rw [if_pos here] at mem
      rcases List.mem_cons.mp mem with rfl | later
      · exact List.not_mem_nil
      · exact ih later
    · rw [if_neg here] at mem
      cases parts : splitChars sep cs with
      | nil => exact absurd parts (splitChars_ne_nil sep cs)
      | cons q qs =>
        rw [parts] at ih mem
        rcases List.mem_cons.mp mem with rfl | later
        · intro there
          rcases List.mem_cons.mp there with same | there
          · exact here same.symm
          · exact ih List.mem_cons_self there
        · exact ih (List.mem_cons_of_mem q later)

/-! ### Trimming -/

/-- `t` is what is left of a text between the blanks at its ends. -/
structure Trims (cs t : List Char) : Prop where
  inside : ∃ before behind, cs = before ++ t ++ behind ∧
    (∀ c ∈ before, isBlank c = true) ∧ ∀ c ∈ behind, isBlank c = true
  first : ∀ c, t.head? = some c → isBlank c = false
  last : ∀ c, t.getLast? = some c → isBlank c = false

theorem head?_dropWhile_blank {cs : List Char} {c : Char}
    (h : (cs.dropWhile isBlank).head? = some c) : isBlank c = false := by
  have stops := List.head?_dropWhile_not isBlank cs
  rwa [h] at stops

theorem trims_trimChars (cs : List Char) : Trims cs (trimChars cs) where
  inside := by
    refine ⟨cs.takeWhile isBlank, (cs.dropWhile isBlank).rtakeWhile isBlank, ?_, ?_, ?_⟩
    · have behind : trimChars cs ++ (cs.dropWhile isBlank).rtakeWhile isBlank = cs.dropWhile isBlank :=
        List.rdropWhile_append_rtakeWhile
      rw [List.append_assoc, behind, List.takeWhile_append_dropWhile]
    · intro c mem
      exact List.mem_takeWhile_imp mem
    · intro c mem
      exact List.mem_rtakeWhile_imp mem
  first := by
    intro c first
    -- What is left begins as the text does behind its first blanks.
    have same : ∃ behind, trimChars cs ++ behind = cs.dropWhile isBlank :=
      List.rdropWhile_prefix isBlank (cs.dropWhile isBlank)
    obtain ⟨behind, same⟩ := same
    have begins : (cs.dropWhile isBlank).head? = some c := by
      rw [← same, List.head?_append, first]
      rfl
    exact head?_dropWhile_blank begins
  last := by
    intro c last
    rw [trimChars, List.getLast?_reverse] at last
    exact head?_dropWhile_blank last

/-- There is one way to take the blanks away. -/
theorem Trims.trimChars_eq {cs t : List Char} (h : Trims cs t) : trimChars cs = t := by
  obtain ⟨⟨before, behind, rfl, blank, blank'⟩, first, last⟩ := h
  have stays {us vs : List Char} (blanks : ∀ c ∈ us, isBlank c = true)
      (solid : ∀ c, vs.head? = some c → isBlank c = false) : (us ++ vs).dropWhile isBlank = vs := by
    rw [List.dropWhile_append_of_pos blanks]
    cases vs with
    | nil => rfl
    | cons c vs => exact List.dropWhile_cons_of_neg (by simp [solid c rfl])
  cases t with
  | nil =>
    have all : ∀ c ∈ before ++ [] ++ behind, isBlank c = true := by
      intro c mem
      rcases List.mem_append.mp (by simpa using mem) with mem | mem
      · exact blank c mem
      · exact blank' c mem
    rw [trimChars, List.dropWhile_eq_nil_iff.mpr all]
    rfl
  | cons c t =>
    have solid : ∀ d, (c :: t).reverse.head? = some d → isBlank d = false := by
      intro d ends
      exact last d (by rwa [List.head?_reverse] at ends)
    have front : (before ++ (c :: t ++ behind)).dropWhile isBlank = c :: t ++ behind := stays blank first
    rw [trimChars, List.append_assoc, front, List.reverse_append,
      stays (fun d mem => blank' d (List.mem_reverse.mp mem)) solid, List.reverse_reverse]

theorem trimChars_trimChars (cs : List Char) : trimChars (trimChars cs) = trimChars cs := by
  obtain ⟨-, first, last⟩ := trims_trimChars cs
  exact Trims.trimChars_eq ⟨⟨[], [], by simp⟩, first, last⟩

theorem trimChars_subset (cs : List Char) : trimChars cs ⊆ cs := by
  obtain ⟨before, behind, same, -⟩ := (trims_trimChars cs).inside
  intro c mem
  rw [same]
  simp [mem]

/-! ### Occurring -/

theorem containsChars_iff (cs part : List Char) : containsChars cs part = true ↔ part <:+: cs := by
  induction cs with
  | nil => rw [containsChars, List.isEmpty_iff, List.infix_nil]
  | cons c cs ih =>
    rw [containsChars, Bool.or_eq_true, ih, List.isPrefixOf_iff_prefix, List.infix_cons_iff]

/-- A text occurs in another if it is a stretch of it. -/
theorem contains_iff (s part : String) : contains s part = true ↔ part.toList <:+: s.toList :=
  containsChars_iff ..

end Flowgraph.Text
