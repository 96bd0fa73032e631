import Flowgraph.Proofs.Placeholder
import Mathlib.Data.List.DropRight

/-! Tokens left after the answers. To list the keys of a text that was filled in gives the keys of the text
    that have no answer, as long as nothing that the answers bring in makes up a token with what is around it.
    Between the tokens that stay there must be no further token, and each of them must be preceded by an even
    number of opening braces: an odd one would shift where the token opens. -/

namespace Flowgraph.Placeholder

open Json

/-! ### Braces next to each other -/

theorem pair_infix_cons_of_ne {a b : Char} {cs : List Char} (other : b ≠ a) :
    [a, a] <:+: b :: cs ↔ [a, a] <:+: cs := by
  cases cs with
  | nil => simp [List.infix_cons_iff]
  | cons c cs => rw [pair_infix_cons, or_iff_right fun both => other both.1]

theorem pair_infix_concat {a b c : Char} {cs : List Char} :
    [a, a] <:+: cs ++ [b] ++ [c] ↔ (b = a ∧ c = a) ∨ [a, a] <:+: cs ++ [b] := by
  have flip (ds : List Char) : [a, a] <:+: ds ↔ [a, a] <:+: ds.reverse := by
    rw [← List.reverse_infix]
    rfl
  rw [flip, flip (cs ++ [b])]
  simp only [List.reverse_append, List.reverse_cons, List.reverse_nil, List.nil_append,
    List.singleton_append]
  rw [pair_infix_cons, and_comm]

/-- A character of another kind keeps the pairs apart. -/
theorem pair_infix_append_of_ne {a b : Char} {cs ds : List Char} (other : b ≠ a) :
    [a, a] <:+: cs ++ b :: ds ↔ [a, a] <:+: cs ∨ [a, a] <:+: ds := by
  induction cs with
  | nil => simp [pair_infix_cons_of_ne other]
  | cons c cs ih =>
    cases cs with
    | nil =>
      rw [List.singleton_append, pair_infix_cons, or_iff_right fun both => other both.2,
        pair_infix_cons_of_ne other]
      simp [List.infix_cons_iff]
    | cons d cs =>
      rw [List.cons_append, List.cons_append, pair_infix_cons, ← List.cons_append, ih, pair_infix_cons,
        or_assoc]

/-- A character in front of the first pair of braces makes up an earlier one just if it is a brace next to a
    brace. -/
theorem pair_infix_front {brace c : Char} {cs before behind : List Char}
    (split : c :: cs = before ++ brace :: brace :: behind) (a : Char) :
    [brace, brace] <:+: a :: before ++ [brace] ↔
      (a = brace ∧ c = brace) ∨ [brace, brace] <:+: before ++ [brace] := by
  cases before with
  | nil =>
    cases split
    exact pair_infix_cons
  | cons d before =>
    cases split
    exact pair_infix_cons

/-- A text is cut at the first pair of braces. -/
theorem cutAt_eq_some_iff {brace : Char} {cs before behind : List Char} :
    cutAt brace cs = some (before, behind) ↔
      cs = before ++ brace :: brace :: behind ∧ ¬[brace, brace] <:+: before ++ [brace] := by
  constructor
  · intro cut
    refine ⟨eq_of_cutAt cut, ?_⟩
    fun_induction cutAt brace cs generalizing before behind with
    | case1 => cases cut; simp [List.infix_cons_iff]
    | case2 a b rest apart ih =>
      obtain ⟨later, there, same⟩ := Option.map_eq_some_iff.mp cut
      cases same
      rw [pair_infix_front (eq_of_cutAt there), or_iff_right apart]
      exact ih there
    | case3 => cases cut
  · rintro ⟨rfl, first⟩
    induction before with
    | nil => simp [cutAt]
    | cons a before ih =>
      have some_left : before ++ brace :: brace :: behind ≠ [] := by simp
      obtain ⟨c, cs, split⟩ := List.exists_cons_of_ne_nil some_left
      rw [pair_infix_front split.symm, not_or] at first
      rw [List.cons_append, split, cutAt, if_neg first.1, ← split, ih first.2]
      rfl

theorem cutAt_eq_none_iff {brace : Char} {cs : List Char} :
    cutAt brace cs = none ↔ ¬[brace, brace] <:+: cs := by
  rw [← isSome_cutAt, Option.not_isSome_iff_eq_none]

theorem holdsOpening_iff {cs : List Char} : holdsOpening cs ↔ ['{', '{'] <:+: cs := isSome_cutAt cs

/-! ### Leaning texts -/

/-- A text ends in an odd number of opening braces. -/
def Leans (cs : List Char) : Prop := (cs.rtakeWhile (· = '{')).length % 2 = 1

instance (cs : List Char) : Decidable (Leans cs) := inferInstanceAs (Decidable (_ = _))

theorem not_leans_nil : ¬Leans [] := by simp [Leans]

theorem leans_concat {cs : List Char} {c : Char} : Leans (cs ++ [c]) ↔ c = '{' ∧ ¬Leans cs := by
  rw [Leans, List.rtakeWhile_concat]
  split
  · rename_i brace
    simp only [decide_eq_true_eq] at brace
    rw [List.length_append, Leans, List.length_singleton]
    simp only [brace, true_and]
    omega
  · rename_i other
    simp only [decide_eq_true_eq] at other
    simp [other]

/-- Whether a text leans depends on its front only by whether that does. -/
theorem leans_append_congr {cs ds : List Char} (same : Leans cs ↔ Leans ds) (es : List Char) :
    Leans (cs ++ es) ↔ Leans (ds ++ es) := by
  induction es using List.reverseRecOn with
  | nil => simpa using same
  | append_singleton es e ih =>
    rw [← List.append_assoc, ← List.append_assoc, leans_concat, leans_concat, ih]

theorem not_leans_of_first {cs : List Char} (first : ¬['{', '{'] <:+: cs ++ ['{']) : ¬Leans cs := by
  induction cs using List.reverseRecOn with
  | nil => exact not_leans_nil
  | append_singleton cs c =>
    rw [pair_infix_concat, not_or] at first
    rw [leans_concat]
    exact fun leans => first.1 ⟨leans.1, rfl⟩

/-- A pair of opening braces does not count, with what is in front of it. -/
theorem leans_behind_opening {before behind : List Char} (first : ¬['{', '{'] <:+: before ++ ['{']) :
    Leans (before ++ '{' :: '{' :: behind) ↔ Leans behind := by
  have opened : Leans (before ++ ['{'] ++ ['{']) ↔ Leans [] := by
    rw [leans_concat, leans_concat]
    simp [not_leans_of_first first, not_leans_nil]
  simpa using leans_append_congr opened behind

theorem leans_behind_closing (before behind : List Char) :
    Leans (before ++ '}' :: behind) ↔ Leans behind := by
  have closed : Leans (before ++ ['}']) ↔ Leans [] := by
    rw [leans_concat]
    simp [not_leans_nil]
  simpa using leans_append_congr closed behind

/-! ### The keys around a token -/

section

variable {text before after key rest : List Char}

theorem keysIn_of_unopened (opened : cutAt '{' text = none) : keysIn text = [] := by
  simp [keysIn_eq, pieces_of_unopened opened, Piece.key?]

theorem keysIn_of_unclosed (opened : cutAt '{' text = some (before, after))
    (closed : cutAt '}' after = none) : keysIn text = [] := by
  simp [keysIn_eq, pieces_of_unclosed opened closed, Piece.key?]

theorem keysIn_of_nested (opened : cutAt '{' text = some (before, after))
    (closed : cutAt '}' after = some (key, rest)) (opens : holdsOpening key) :
    keysIn text = keysIn after := by
  simp [keysIn_eq, pieces_of_nested opened closed opens, List.filterMap_cons, Piece.key?]

theorem keysIn_of_token (opened : cutAt '{' text = some (before, after))
    (closed : cutAt '}' after = some (key, rest)) (opens : ¬holdsOpening key) :
    keysIn text = String.ofList key :: keysIn rest := by
  simp [keysIn_eq, pieces_of_token opened closed opens, List.filterMap_cons, Piece.key?]

end

theorem keysIn_of_no_closing {text : List Char} (unclosed : ¬['}', '}'] <:+: text) : keysIn text = [] := by
  cases opened : cutAt '{' text with
  | none => exact keysIn_of_unopened opened
  | some cut =>
    obtain ⟨before, after⟩ := cut
    have behind : after <:+: text := ⟨before ++ ['{', '{'], [], by simp [eq_of_cutAt opened]⟩
    exact keysIn_of_unclosed opened (cutAt_eq_none_iff.mpr fun closes => unclosed (closes.trans behind))

/-- The key that is read where one more opening brace is in front of the token: the brace is taken into the
    key, unless this makes a pair with a brace there, which then opens the token. -/
def leaned (key : List Char) : List Char := if key.head? = some '{' then key.tail else '{' :: key

theorem length_leaned_ne (key : List Char) : (leaned key).length ≠ key.length := by
  cases key with
  | nil => decide
  | cons c key =>
    rw [leaned]
    split <;> simp

/-- A key that can stand in a token. -/
structure IsKey (key : List Char) : Prop where
  opens : ¬['{', '{'] <:+: key
  closes : ¬['}', '}'] <:+: key ++ ['}']

section
variable {k : List Char} (plain : IsKey k) (t : List Char)
include plain

theorem keysIn_token {w : List Char} (first : ¬['{', '{'] <:+: w ++ ['{']) :
    keysIn (w ++ (Piece.token k).chars ++ t) = String.ofList k :: keysIn t := by
  have opened : cutAt '{' (w ++ (Piece.token k).chars ++ t) = some (w, k ++ '}' :: '}' :: t) :=
    cutAt_eq_some_iff.mpr ⟨by simp [Piece.chars], first⟩
  have closed : cutAt '}' (k ++ '}' :: '}' :: t) = some (k, t) :=
    cutAt_eq_some_iff.mpr ⟨rfl, plain.closes⟩
  exact keysIn_of_token opened closed (mt holdsOpening_iff.mp plain.opens)

/-- One more brace in front of a token changes its key. -/
theorem keysIn_leaned {w : List Char} (first : ¬['{', '{'] <:+: w ++ ['{']) :
    keysIn (w ++ ['{'] ++ (Piece.token k).chars ++ t) = String.ofList (leaned k) :: keysIn t := by
  have opened : cutAt '{' (w ++ ['{'] ++ (Piece.token k).chars ++ t)
      = some (w, '{' :: k ++ '}' :: '}' :: t) :=
    cutAt_eq_some_iff.mpr ⟨by simp [Piece.chars], first⟩
  have closed : cutAt '}' ('{' :: k ++ '}' :: '}' :: t) = some ('{' :: k, t) := by
    refine cutAt_eq_some_iff.mpr ⟨rfl, ?_⟩
    rw [List.cons_append, pair_infix_cons_of_ne (by decide)]
    exact plain.closes
  by_cases brace : k.head? = some '{'
  · obtain ⟨inner, rfl⟩ := List.head?_eq_some_iff.mp brace
    have plain : IsKey inner :=
      ⟨fun opens => plain.opens (List.infix_cons opens), fun closes => plain.closes (List.infix_cons closes)⟩
    rw [keysIn_of_nested opened closed (holdsOpening_iff.mpr ⟨[], inner, rfl⟩), leaned, if_pos brace]
    have behind := keysIn_token plain t (w := []) (by simp [List.infix_cons_iff])
    simpa [Piece.chars] using behind
  · have opens : ¬holdsOpening ('{' :: k) := by
      rw [holdsOpening_iff, List.infix_cons_iff, not_or]
      refine ⟨fun front => ?_, plain.opens⟩
      obtain ⟨rest, same⟩ := front
      cases same
      exact brace rfl
    rw [keysIn_of_token opened closed opens, leaned, if_neg brace]

theorem keysIn_around_of_unopened {w : List Char} (opened : ¬['{', '{'] <:+: w) :
    keysIn (w ++ (Piece.token k).chars ++ t)
      = String.ofList (if Leans w then leaned k else k) :: keysIn t := by
  by_cases first : ['{', '{'] <:+: w ++ ['{']
  · obtain rfl | ⟨v, c, rfl⟩ := List.eq_nil_or_concat w
    · simp [List.infix_cons_iff] at first
    rw [List.concat_eq_append] at first opened ⊢
    obtain ⟨rfl, -⟩ := (pair_infix_concat.mp first).resolve_right opened
    have leans : Leans (v ++ ['{']) := leans_concat.mpr ⟨rfl, not_leans_of_first opened⟩
    rw [if_pos leans, keysIn_leaned plain t opened]
  · rw [if_neg (not_leans_of_first first), keysIn_token plain t first]

/-- Behind a text without two closing braces, those of the token are the first. -/
theorem cutAt_closing_of_unclosed {w : List Char} (unclosed : ¬['}', '}'] <:+: w) :
    cutAt '}' (w ++ (Piece.token k).chars ++ t) = some (w ++ '{' :: '{' :: k, t) := by
  refine cutAt_eq_some_iff.mpr ⟨by simp [Piece.chars], ?_⟩
  rw [List.append_assoc, List.cons_append, pair_infix_append_of_ne (by decide), List.cons_append,
    pair_infix_cons_of_ne (by decide), not_or]
  exact ⟨unclosed, plain.closes⟩

/-- A token adds its key between those of the text before it and those of the text behind it; it is the leaned
    key if the text before it leans. -/
theorem keysIn_around (w : List Char) :
    keysIn (w ++ (Piece.token k).chars ++ t)
      = keysIn w ++ String.ofList (if Leans w then leaned k else k) :: keysIn t := by
  -- The induction is on the length of `w`: what is cut off in front of the token makes it shorter.
  induction long : w.length using Nat.strong_induction_on generalizing w with
  | _ n ih =>
    subst long
    cases opened : cutAt '{' w with
    | none =>
      rw [keysIn_of_unopened opened, List.nil_append]
      exact keysIn_around_of_unopened plain t (cutAt_eq_none_iff.mp opened)
    | some cut =>
      obtain ⟨before, after⟩ := cut
      obtain ⟨rfl, first⟩ := cutAt_eq_some_iff.mp opened
      have shorter := cutAt_length opened
      have opened' : cutAt '{' (before ++ '{' :: '{' :: after ++ (Piece.token k).chars ++ t)
          = some (before, after ++ (Piece.token k).chars ++ t) :=
        cutAt_eq_some_iff.mpr ⟨by simp, first⟩
      rw [if_congr (leans_behind_opening first) rfl rfl]
      cases closed : cutAt '}' after with
      | none =>
        -- the token closes what was opened before it, and so its own opening counts
        have unclosed := cutAt_eq_none_iff.mp closed
        rw [keysIn_of_nested opened' (cutAt_closing_of_unclosed plain t unclosed)
            (holdsOpening_iff.mpr ⟨after, k, by simp⟩),
          keysIn_of_unclosed opened closed, ih _ shorter _ rfl, keysIn_of_no_closing unclosed]
      | some cut =>
        obtain ⟨key, rest⟩ := cut
        obtain ⟨rfl, last⟩ := cutAt_eq_some_iff.mp closed
        have closed' : cutAt '}' (key ++ '}' :: '}' :: rest ++ (Piece.token k).chars ++ t)
            = some (key, rest ++ (Piece.token k).chars ++ t) :=
          cutAt_eq_some_iff.mpr ⟨by simp, last⟩
        by_cases opens : holdsOpening key
        · rw [keysIn_of_nested opened' closed' opens, keysIn_of_nested opened closed opens]
          exact ih _ shorter _ rfl
        · have same : Leans (key ++ '}' :: '}' :: rest) ↔ Leans rest := by
            simpa using leans_behind_closing (key ++ ['}']) rest
          rw [keysIn_of_token opened' closed' opens, keysIn_of_token opened closed opens,
            ih _ ((cutAt_length closed).trans shorter) _ rfl, List.cons_append, if_congr same rfl rfl]

end

theorem isKey_of_token_mem_pieces {text key : List Char} (mem : .token key ∈ pieces text) : IsKey key := by
  obtain ⟨none_opens, after, rest, closed⟩ := exists_cutAt_of_token_mem_pieces mem
  exact ⟨not_infix_of_holdsOpening none_opens, (cutAt_eq_some_iff.mp closed).2⟩

/-! ### Texts without a token -/

/-- Two opening braces somewhere, and two closing ones behind them. -/
def HoldsToken (cs : List Char) : Prop :=
  ∃ before key behind, cs = before ++ '{' :: '{' :: (key ++ '}' :: '}' :: behind)

/-- What is behind any pair of braces is behind the first one. -/
theorem suffix_of_cutAt {brace : Char} {cs before after front behind : List Char}
    (cut : cutAt brace cs = some (before, after)) (there : cs = front ++ brace :: brace :: behind) :
    behind <:+ after := by
  obtain ⟨here, first⟩ := cutAt_eq_some_iff.mp cut
  rw [here] at there
  rcases List.append_eq_append_iff.mp there with ⟨more, rfl, same⟩ | ⟨more, rfl, same⟩
  · cases more with
    | nil =>
      cases same
      exact List.suffix_rfl
    | cons c more =>
      cases more with
      | nil =>
        cases same
        exact List.suffix_cons _ _
      | cons d more =>
        cases same
        exact ⟨more ++ [brace, brace], by simp⟩
  · cases more with
    | nil =>
      cases same
      exact List.suffix_rfl
    | cons c more =>
      -- an earlier pair would have been the first
      refine absurd ?_ first
      cases more with
      | nil =>
        cases same
        exact ⟨front, [], by simp⟩
      | cons d more =>
        cases same
        exact ⟨front, more ++ [brace], by simp⟩

/-- A text has no key just if it holds no token. -/
theorem keysIn_eq_nil_iff {cs : List Char} : keysIn cs = [] ↔ ¬HoldsToken cs := by
  fun_induction keysIn cs with
  | case1 cs opened =>
    refine iff_of_true rfl ?_
    rintro ⟨before, key, behind, rfl⟩
    exact cutAt_eq_none_iff.mp opened ⟨before, key ++ '}' :: '}' :: behind, by simp⟩
  | case2 cs before after opened closed =>
    refine iff_of_true rfl ?_
    rintro ⟨front, key, behind, there⟩
    have suffix := (suffix_of_cutAt opened there).isInfix
    exact cutAt_eq_none_iff.mp closed (List.IsInfix.trans ⟨key, behind, by simp⟩ suffix)
  | case3 cs before after opened key rest closed opens ih =>
    obtain ⟨front, behind, rfl⟩ := holdsOpening_iff.mp opens
    have inner : HoldsToken after := ⟨front, behind, rest, by simp [eq_of_cutAt closed]⟩
    have outer : HoldsToken cs := ⟨before, _, rest, by rw [eq_of_cutAt opened, eq_of_cutAt closed]⟩
    exact ih.trans (iff_of_false (not_not_intro inner) (not_not_intro outer))
  | case4 cs before after opened key rest closed opens ih =>
    have token : HoldsToken cs := ⟨before, key, rest, by rw [eq_of_cutAt opened, eq_of_cutAt closed]⟩
    exact iff_of_false (List.cons_ne_nil _ _) (not_not_intro token)

instance (cs : List Char) : Decidable (HoldsToken cs) :=
  decidable_of_iff (keysIn cs ≠ []) (by rw [ne_eq, keysIn_eq_nil_iff, not_not])

/-! ### Texts that were filled in -/

/-- A key that no answer is for. -/
def unanswered (answers : Object) (key : String) : Bool := (answers.member? key).isNone

/-- A token that no answer takes the place of. -/
def Piece.isOpen (answers : Object) (piece : Piece) : Bool := piece.key?.any (unanswered answers)

/-- The stretches of a filled in text between the tokens that are left in it; `w` is what there is of the
    first one already. -/
def stretches (answers : Object) (w : List Char) : List Piece → List (List Char)
  | [] => [w]
  | piece :: ps =>
    if piece.isOpen answers then w :: stretches answers [] ps
    else stretches answers (w ++ piece.fill answers) ps

theorem stretches_ne_nil (answers : Object) (w : List Char) (ps : List Piece) :
    stretches answers w ps ≠ [] := by
  induction ps generalizing w with
  | nil => exact List.cons_ne_nil _ _
  | cons piece ps ih =>
    rw [stretches]
    split
    · exact List.cons_ne_nil _ _
    · exact ih _

/-- The keys of the tokens that no answer takes the place of. -/
def openKeys (answers : Object) (ps : List Piece) : List String :=
  (ps.filterMap Piece.key?).filter (unanswered answers)

/-- A piece is an open token, which stays as it is and has its key among the open ones, or it has no part in
    them. -/
theorem open_or_settled (answers : Object) (piece : Piece) :
    (∃ k, piece = .token k ∧ piece.isOpen answers = true ∧ piece.fill answers = piece.chars ∧
        ∀ ps, openKeys answers (piece :: ps) = String.ofList k :: openKeys answers ps) ∨
      piece.isOpen answers = false ∧
        ∀ ps, openKeys answers (piece :: ps) = openKeys answers ps := by
  cases piece with
  | literal text => exact .inr ⟨rfl, fun _ => rfl⟩
  | token k =>
    have listed (ps : List Piece) : openKeys answers (.token k :: ps)
        = (String.ofList k :: ps.filterMap Piece.key?).filter (unanswered answers) := rfl
    cases answer : answers.member? (String.ofList k) with
    | none =>
      have no : unanswered answers (String.ofList k) = true := by rw [unanswered, answer]; rfl
      refine .inl ⟨k, rfl, no, by rw [Piece.fill, answer]; rfl, fun ps => ?_⟩
      rw [listed, List.filter_cons_of_pos no]
      rfl
    | some v =>
      have yes : unanswered answers (String.ofList k) = false := by rw [unanswered, answer]; rfl
      refine .inr ⟨yes, fun ps => ?_⟩
      rw [listed, List.filter_cons_of_neg (by simp [yes])]
      rfl

theorem append_cons_eq_iff {α : Type} {before behind others : List α} {x y : α}
    (fewer : others.length ≤ behind.length) :
    before ++ x :: behind = y :: others ↔ before = [] ∧ x = y ∧ behind = others := by
  cases before with
  | nil => simp
  | cons z before =>
    refine iff_of_false (fun same => ?_) (by simp)
    have long := congrArg List.length same
    simp only [List.length_append, List.length_cons] at long
    omega

/-- The scan of a filled in text finds as many keys at least as are open, and just these if no stretch holds a
    token and none in front of an open token leans. -/
theorem keysIn_fill (answers : Object) {ps : List Piece} (keys : ∀ k, .token k ∈ ps → IsKey k)
    (w : List Char) :
    (openKeys answers ps).length ≤ (keysIn (w ++ ps.flatMap (Piece.fill answers))).length ∧
      (keysIn (w ++ ps.flatMap (Piece.fill answers)) = openKeys answers ps ↔
        (∀ g ∈ stretches answers w ps, ¬HoldsToken g) ∧
          ∀ g ∈ (stretches answers w ps).dropLast, ¬Leans g) := by
  induction ps generalizing w with
  | nil => simp [openKeys, stretches, keysIn_eq_nil_iff]
  | cons piece ps ih =>
    have ih := ih fun k mem => keys k (List.mem_cons_of_mem _ mem)
    rcases open_or_settled answers piece with ⟨k, rfl, isOpen, stays, listed⟩ | ⟨settled, listed⟩
    · obtain ⟨fewer, same⟩ := ih []
      rw [List.nil_append] at fewer same
      have key : String.ofList (if Leans w then leaned k else k) = String.ofList k ↔ ¬Leans w := by
        split
        · rename_i leans
          refine iff_of_false (fun same => length_leaned_ne k ?_) (not_not_intro leans)
          rw [String.ofList_injective same]
        · rename_i upright
          exact iff_of_true rfl upright
      rw [List.flatMap_cons, stays, ← List.append_assoc, keysIn_around (keys k List.mem_cons_self), listed,
        append_cons_eq_iff fewer, key, same, keysIn_eq_nil_iff, stretches, if_pos isOpen,
        List.dropLast_cons_of_ne_nil (stretches_ne_nil _ _ _), List.forall_mem_cons, List.forall_mem_cons]
      refine ⟨?_, ?_⟩
      · simp only [List.length_append, List.length_cons]
        omega
      · tauto
    · rw [listed, stretches, settled, List.flatMap_cons, ← List.append_assoc]
      exact ih _

/-- What the answers bring into a text makes up no token, and no open token is shifted by a brace in front of
    it. -/
structure Undisturbed (answers : Object) (text : String) : Prop where
  tokenless : ∀ g ∈ stretches answers [] (pieces text.toList), ¬HoldsToken g
  upright : ∀ g ∈ (stretches answers [] (pieces text.toList)).dropLast, ¬Leans g

theorem undisturbed_iff {answers : Object} {text : String} : Undisturbed answers text ↔
    (∀ g ∈ stretches answers [] (pieces text.toList), ¬HoldsToken g) ∧
      ∀ g ∈ (stretches answers [] (pieces text.toList)).dropLast, ¬Leans g :=
  ⟨fun h => ⟨h.tokenless, h.upright⟩, fun h => ⟨h.1, h.2⟩⟩

instance (answers : Object) (text : String) : Decidable (Undisturbed answers text) :=
  decidable_of_iff _ undisturbed_iff.symm

/-- A filled in text has as many keys at least as its text has without an answer, and just these if it is
    undisturbed. -/
theorem keys_render (answers : Object) (text : String) :
    ((keys text).filter (unanswered answers)).length ≤ (keys (render text answers)).length ∧
      (keys (render text answers) = (keys text).filter (unanswered answers) ↔ Undisturbed answers text) := by
  have sound (k : List Char) (mem : .token k ∈ pieces text.toList) : IsKey k :=
    isKey_of_token_mem_pieces mem
  obtain ⟨fewer, same⟩ := keysIn_fill answers sound []
  have filled : keys (render text answers) = keysIn ((pieces text.toList).flatMap (Piece.fill answers)) := by
    rw [keys, toList_render]
  have listed : (keys text).filter (unanswered answers) = openKeys answers (pieces text.toList) := by
    rw [keys, keysIn_eq, openKeys]
  rw [filled, listed]
  exact ⟨fewer, same.trans undisturbed_iff.symm⟩

/-- An answer with a brace before an open token shifts it, and one that looks like a token stands as one. -/
example : Undisturbed [("a", .str "\x7b\x7b")] "\x7b\x7ba\x7d\x7d \x7b\x7bb\x7d\x7d" ∧
    ¬Undisturbed [("a", .str "\x7b")] "\x7b\x7ba\x7d\x7d\x7b\x7bb\x7d\x7d" ∧
    ¬Undisturbed [("a", .str "\x7b\x7bb\x7d\x7d")] "\x7b\x7ba\x7d\x7d" := by decide +kernel

end Flowgraph.Placeholder
