import Flowgraph.Placeholder
import Flowgraph.Proofs.Json.Objects

/-! Placeholders and their texts. A text splits into literal pieces and tokens, and both scans of it, the one
    that fills in answers and the one that lists keys, see this split: the first fills each token, the second
    lists their keys. The split does not depend on the answers, so what an answer brings in is never looked at.
    Filling answers into a value changes its texts alone, so the value stays in canonical form. -/

namespace Flowgraph.Placeholder

open Json

/-! ### Braces next to each other -/

theorem pair_infix_cons {a b c : Char} {cs : List Char} :
    [a, a] <:+: b :: c :: cs ↔ (b = a ∧ c = a) ∨ [a, a] <:+: c :: cs := by
  rw [List.infix_cons_iff, List.cons_prefix_cons, List.cons_prefix_cons]
  simp only [List.nil_prefix, and_true, eq_comm]

/-- A text can be cut just if the two braces stand next to each other in it. -/
theorem isSome_cutAt {brace : Char} (cs : List Char) :
    (cutAt brace cs).isSome ↔ [brace, brace] <:+: cs := by
  fun_induction cutAt brace cs with
  | case1 a b rest both => simp [pair_infix_cons, both]
  | case2 a b rest apart ih => rw [Option.isSome_map, ih, pair_infix_cons, or_iff_right apart]
  | case3 cs short =>
    rcases cs with _ | ⟨a, _ | ⟨b, rest⟩⟩
    · simp
    · simp [List.infix_cons_iff]
    · exact absurd rfl (short a b rest)

/-- The braces at which a text is cut are the first of their kind. -/
theorem not_infix_of_cutAt {brace : Char} {cs before behind : List Char}
    (h : cutAt brace cs = some (before, behind)) : ¬ [brace, brace] <:+: before := by
  fun_induction cutAt brace cs generalizing before behind with
  | case1 => cases h; simp
  | case2 a b rest apart ih =>
    obtain ⟨⟨head, tail⟩, there, same⟩ := Option.map_eq_some_iff.mp h
    cases same
    have cut := eq_of_cutAt there
    cases head with
    | nil => simp [List.infix_cons_iff]
    | cons c head =>
      cases cut
      rw [pair_infix_cons, or_iff_right apart]
      exact ih there
  | case3 => cases h

theorem not_infix_of_holdsOpening {cs : List Char} (none_opens : ¬ holdsOpening cs) :
    ¬ ['{', '{'] <:+: cs := by
  rwa [holdsOpening, isSome_cutAt] at none_opens

/-! ### The split of a text -/

/-- Text that stands for itself, or a token with its key. -/
inductive Piece where
  | literal (text : List Char)
  | token (key : List Char)
  deriving DecidableEq, Repr

/-- A piece as it stands in the text. -/
def Piece.chars : Piece → List Char
  | .literal text => text
  | .token key => '{' :: '{' :: key ++ ['}', '}']

/-- What an answer brings in: the characters of a text as they are, and of any other value its compact JSON. -/
def answerChars : Value → List Char
  | .str text => text.toList
  | other => other.compact.toList

theorem toList_answerText (v : Value) : (answerText v).toList = answerChars v := by
  cases v <;> rfl

/-- A piece with the answers filled in; a token without an answer stays as it is. -/
def Piece.fill (answers : Object) : Piece → List Char
  | .literal text => text
  | .token key => (answers.member? (String.ofList key)).elim (Piece.token key).chars answerChars

def Piece.key? : Piece → Option String
  | .literal _ => none
  | .token key => some (String.ofList key)

/-- The pieces of a text. -/
def pieces (text : List Char) : List Piece :=
  match _opened : cutAt '{' text with
  | none => [.literal text]
  | some (before, after) =>
    match _closed : cutAt '}' after with
    | none => [.literal text]
    | some (key, rest) =>
      if holdsOpening key then .literal (before ++ ['{', '{']) :: pieces after
      else .literal before :: .token key :: pieces rest
termination_by text.length
decreasing_by
  · exact cutAt_length _opened
  · exact Nat.lt_trans (cutAt_length _closed) (cutAt_length _opened)

section

variable {text before after key rest : List Char}

theorem pieces_of_unopened (opened : cutAt '{' text = none) : pieces text = [.literal text] := by
  fun_cases pieces text <;> simp_all

theorem pieces_of_unclosed (opened : cutAt '{' text = some (before, after))
    (closed : cutAt '}' after = none) : pieces text = [.literal text] := by
  fun_cases pieces text <;> simp_all

theorem pieces_of_nested (opened : cutAt '{' text = some (before, after))
    (closed : cutAt '}' after = some (key, rest)) (opens : holdsOpening key) :
    pieces text = .literal (before ++ ['{', '{']) :: pieces after := by
  fun_cases pieces text <;> simp_all

theorem pieces_of_token (opened : cutAt '{' text = some (before, after))
    (closed : cutAt '}' after = some (key, rest)) (opens : ¬ holdsOpening key) :
    pieces text = .literal before :: .token key :: pieces rest := by
  fun_cases pieces text <;> simp_all

end

/-- The pieces of a text, one behind the other, are the text. -/
theorem flatMap_chars_pieces (text : List Char) : (pieces text).flatMap Piece.chars = text := by
  fun_induction pieces text with
  | case1 text _ => simp [Piece.chars]
  | case2 text _ _ _ _ => simp [Piece.chars]
  | case3 text before after opened key rest closed _ ih =>
    rw [List.flatMap_cons, ih, eq_of_cutAt opened]
    simp [Piece.chars]
  | case4 text before after opened key rest closed _ ih =>
    rw [List.flatMap_cons, List.flatMap_cons, ih, eq_of_cutAt opened, eq_of_cutAt closed]
    simp [Piece.chars]

/-- A token ends at the first two closing braces behind its key, and the key opens no other. -/
theorem exists_cutAt_of_token_mem_pieces {text key : List Char} (mem : .token key ∈ pieces text) :
    ¬ holdsOpening key ∧ ∃ after rest, cutAt '}' after = some (key, rest) := by
  fun_induction pieces text with
  | case1 | case2 => simp at mem
  | case3 text before after opened _ rest closed _ ih =>
    rcases List.mem_cons.mp mem with here | there
    · cases here
    · exact ih there
  | case4 text before after opened _ rest closed none_opens ih =>
    rcases List.mem_cons.mp mem with here | there
    · cases here
    rcases List.mem_cons.mp there with here | there
    · cases here
      exact ⟨none_opens, after, rest, closed⟩
    · exact ih there

/-- No key has two opening or two closing braces next to each other. -/
theorem not_infix_of_token_mem_pieces {text key : List Char} (mem : .token key ∈ pieces text) :
    ¬ ['{', '{'] <:+: key ∧ ¬ ['}', '}'] <:+: key := by
  obtain ⟨none_opens, after, rest, closed⟩ := exists_cutAt_of_token_mem_pieces mem
  exact ⟨not_infix_of_holdsOpening none_opens, not_infix_of_cutAt closed⟩

theorem fillToken_eq (answers : Object) (key : List Char) :
    fillToken answers key = (Piece.token key).fill answers := by
  rw [fillToken, Piece.fill]
  cases answers.member? (String.ofList key) with
  | none => rfl
  | some v => exact toList_answerText v

/-- The scan that fills in answers fills the pieces of the text. -/
theorem renderChars_eq (answers : Object) (text : List Char) :
    renderChars answers text = (pieces text).flatMap (Piece.fill answers) := by
  fun_induction renderChars answers text with
  | case1 text opened => simp [pieces_of_unopened opened, Piece.fill]
  | case2 text before after opened closed =>
    rw [pieces_of_unclosed opened closed, ← eq_of_cutAt opened]
    simp [Piece.fill]
  | case3 text before after opened key rest closed opens ih =>
    simp [pieces_of_nested opened closed opens, Piece.fill, ih]
  | case4 text before after opened key rest closed opens ih =>
    simp [pieces_of_token opened closed opens, Piece.fill, ih, fillToken_eq]

/-- The scan that lists keys lists those of the tokens among the pieces. -/
theorem keysIn_eq (text : List Char) : keysIn text = (pieces text).filterMap Piece.key? := by
  fun_induction keysIn text with
  | case1 text opened => simp [pieces_of_unopened opened, Piece.key?]
  | case2 text before after opened closed => simp [pieces_of_unclosed opened closed, Piece.key?]
  | case3 text before after opened key rest closed opens ih =>
    simp [pieces_of_nested opened closed opens, List.filterMap_cons, Piece.key?, ih]
  | case4 text before after opened key rest closed opens ih =>
    simp [pieces_of_token opened closed opens, List.filterMap_cons, Piece.key?, ih]

theorem toList_render (text : String) (answers : Object) :
    (render text answers).toList = (pieces text.toList).flatMap (Piece.fill answers) := by
  rw [render, String.toList_ofList, renderChars_eq]

theorem fill_nil : Piece.fill [] = Piece.chars := by
  funext piece
  cases piece <;> rfl

theorem render_nil (text : String) : render text [] = text := by
  rw [← String.toList_inj, toList_render, fill_nil, flatMap_chars_pieces]

/-- Answers that agree on the keys of a text fill it in alike. -/
theorem render_congr {text : String} {answers others : Object}
    (agree : ∀ key ∈ keys text, answers.member? key = others.member? key) :
    render text answers = render text others := by
  rw [← String.toList_inj, toList_render, toList_render]
  refine List.flatMap_congr fun piece mem => ?_
  cases piece with
  | literal text => rfl
  | token key =>
    have listed : String.ofList key ∈ keys text := by
      rw [keys, keysIn_eq]
      exact List.mem_filterMap.mpr ⟨_, mem, rfl⟩
    rw [Piece.fill, Piece.fill, agree _ listed]

/-- Behind both scans of a text is one split of it into literal pieces and tokens. The answers have no part in
    it, so an answer that looks like a token itself is left as it is: the only answers that count are those to
    keys of the text. -/
theorem exists_split (text : String) :
    (∃ split : List Piece,
      split.flatMap Piece.chars = text.toList ∧
      (∀ key, .token key ∈ split → ¬ ['{', '{'] <:+: key ∧ ¬ ['}', '}'] <:+: key) ∧
      keys text = split.filterMap Piece.key? ∧
      ∀ answers, (render text answers).toList = split.flatMap (Piece.fill answers)) ∧
    render text [] = text ∧
    ∀ answers, render text answers = render text (answers.filter fun m => m.1 ∈ keys text) := by
  refine ⟨⟨pieces text.toList, flatMap_chars_pieces _, ?_, keysIn_eq _, toList_render text⟩,
    render_nil text, fun answers => ?_⟩
  · intro key mem
    exact not_infix_of_token_mem_pieces mem
  · refine render_congr fun key listed => ?_
    rw [Object.member?_filter fun k => k ∈ keys text, if_pos (decide_eq_true listed)]

/-- Of two openings the inner one makes the token, and the third closing brace is left over. -/
example : pieces ['{', '{', 'a', '{', '{', 'b', '}', '}', '}']
    = [.literal ['{', '{'], .literal ['a'], .token ['b'], .literal ['}']] := by decide +kernel

theorem render_of_not_holdsOpening {text : String} (none_opens : ¬ holdsOpening text.toList)
    (answers : Object) : render text answers = text := by
  rw [holdsOpening, Option.not_isSome_iff_eq_none] at none_opens
  rw [render, renderChars, none_opens, String.ofList_toList]

/-- A text without an opening brace has no token. -/
theorem render_of_plain {text : String} (plain : '{' ∉ text.toList) (answers : Object) :
    render text answers = text := by
  refine render_of_not_holdsOpening (fun opens => plain ?_) answers
  exact ((isSome_cutAt _).mp opens).subset (List.mem_cons_self ..)

/-! ### Values -/

/-- A text without a token needs no filling in, so every text may be taken as filled in. -/
theorem apply_str (answers : Object) (s : String) : apply answers (.str s) = .str (render s answers) := by
  rw [apply]
  by_cases opens : holdsOpening s.toList
  · rw [if_pos opens]
  · rw [if_neg opens, render_of_not_holdsOpening opens]

mutual

/-- Without answers a value is left as it is. -/
theorem apply_nil : ∀ v : Value, apply [] v = v
  | .null | .bool _ | .num _ => rfl
  | .str s => by rw [apply_str, render_nil]
  | .arr items => by rw [apply, applyItems_nil]
  | .obj members => by rw [apply, applyMembers_nil]

theorem applyItems_nil : ∀ vs : List Value, applyItems [] vs = vs
  | [] => rfl
  | v :: vs => by rw [applyItems, apply_nil, applyItems_nil]

theorem applyMembers_nil : ∀ ms : List (String × Value), applyMembers [] ms = ms
  | [] => rfl
  | (k, v) :: ms => by rw [applyMembers, apply_nil, applyMembers_nil]

end

theorem applyItems_eq_map (answers : Object) (vs : List Value) :
    applyItems answers vs = vs.map (apply answers) := by
  induction vs with
  | nil => rfl
  | cons v vs ih => rw [applyItems, ih, List.map_cons]

theorem applyMembers_eq_mapValues (answers : Object) (ms : Object) :
    applyMembers answers ms = ms.mapValues (apply answers) := by
  induction ms with
  | nil => rfl
  | cons m ms ih =>
    obtain ⟨k, v⟩ := m
    rw [applyMembers, ih]
    rfl

theorem apply_obj (answers : Object) (o : Object) :
    apply answers (.obj o) = .obj (o.mapValues (apply answers)) := by
  rw [apply, applyMembers_eq_mapValues]

theorem member?_apply (answers : Object) (v : Value) (key : String) :
    (apply answers v).member? key = (v.member? key).map (apply answers) := by
  cases v with
  | obj ms =>
    rw [apply_obj]
    exact Object.member?_map (apply answers) ms key
  | null | bool _ | num _ | str _ | arr _ => rfl

mutual

/-- To fill in answers and to bring into canonical form do not get in each other's way. -/
theorem canonical_apply (answers : Object) : ∀ v : Value,
    (apply answers v).canonical = apply answers v.canonical
  | .null | .bool _ | .num _ | .str _ => rfl
  | .arr items => by
      rw [apply, Value.canonical, Value.canonical, apply, canonicalItems_applyItems]
  | .obj members => by
      rw [apply, Value.canonical, Value.canonical, apply, canonicalMembers_applyMembers,
        applyMembers_eq_mapValues, applyMembers_eq_mapValues]
      exact congrArg Value.obj (Object.map_ofList (apply answers) _).symm

theorem canonicalItems_applyItems (answers : Object) : ∀ vs : List Value,
    Value.canonicalItems (applyItems answers vs) = applyItems answers (Value.canonicalItems vs)
  | [] => rfl
  | v :: vs => by
      rw [applyItems, Value.canonicalItems, Value.canonicalItems, applyItems, canonical_apply,
        canonicalItems_applyItems]

theorem canonicalMembers_applyMembers (answers : Object) : ∀ ms : List (String × Value),
    Value.canonicalMembers (applyMembers answers ms)
      = applyMembers answers (Value.canonicalMembers ms)
  | [] => rfl
  | (k, v) :: ms => by
      rw [applyMembers, Value.canonicalMembers, Value.canonicalMembers, applyMembers,
        canonical_apply, canonicalMembers_applyMembers]

end

theorem canonical_filled {v : Value} (canonical : v.canonical = v) (answers : Object) :
    (apply answers v).canonical = apply answers v := by
  rw [canonical_apply, canonical]

end Flowgraph.Placeholder
