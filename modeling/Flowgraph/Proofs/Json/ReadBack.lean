import Flowgraph.Proofs.Json.Numerals
import Flowgraph.Proofs.Json.Rereading

/-! Printed text reads back. The text of a value on indented lines is read as the tree of that value with nothing
    behind it, if each of its numbers is told by its numeral. Every statement on a part of the text is about that
    part in front of anything that can stand there. -/

namespace Flowgraph.Json

open Numeral (isDigit)

mutual

/-- Every number in the value is told by its numeral. -/
def Value.isLegible : Value → Bool
  | .num n => n.isLegible
  | .arr items => legibleItems items
  | .obj members => legibleMembers members
  | .null | .bool _ | .str _ => true

def legibleItems : List Value → Bool
  | [] => true
  | v :: vs => v.isLegible && legibleItems vs

def legibleMembers : List (String × Value) → Bool
  | [] => true
  | (_, v) :: ms => v.isLegible && legibleMembers ms

end

/-! ### Strings -/

theorem readString_short (chars rest : List Char) {letter c : Char} (short : shortEscape? letter = some c) :
    readString ⟨chars, none, none⟩ ('\\' :: letter :: rest) = readString ⟨c :: chars, none, none⟩ rest := by
  have other : letter ≠ 'u' := by
    rintro rfl
    cases short
  rw [readString]
  · simp only [short, StringState.push]
  all_goals simp [other]

theorem readString_unit (chars rest : List Char) {n : Nat} (control : n < 32) :
    readString ⟨chars, none, none⟩ ('\\' :: 'u' :: '0' :: '0' :: hexByte n ++ rest)
      = readString ⟨Char.ofNat n :: chars, none, none⟩ rest := by
  have unit : ∀ k : Fin 32, hexUnit? '0' '0' (Nat.digitChar (k.val / 16 % 16)) (Nat.digitChar (k.val % 16))
      = some k.val := by decide
  have low : ¬(0xDC00 ≤ n ∧ n ≤ 0xDFFF) := by omega
  have high : ¬(0xD800 ≤ n ∧ n ≤ 0xDBFF) := by omega
  simp only [hexByte, List.cons_append, List.nil_append, readString, unit ⟨n, control⟩, StringState.pushUnit, low,
    high, if_false]

theorem readString_plain (chars rest : List Char) {c : Char} (quote : c ≠ '"') (slash : c ≠ '\\')
    (plain : ¬c.toNat < 32) :
    readString ⟨chars, none, none⟩ (c :: rest) = readString ⟨c :: chars, none, none⟩ rest := by
  rw [readString]
  · simp only [plain, if_false, StringState.push]
  all_goals simp [quote, slash]

/-- An escaped character is read as that character. -/
theorem readString_escapedChar (chars : List Char) (c : Char) (rest : List Char) :
    readString ⟨chars, none, none⟩ (escapedChar c ++ rest) = readString ⟨c :: chars, none, none⟩ rest := by
  have coded {n : Nat} (same : c.toNat = n) : Char.ofNat n = c := same ▸ Char.ofNat_toNat c
  rw [escapedChar]
  repeat' split
  · rename_i quote
    exact readString_short chars rest (by rw [quote]; decide)
  · rename_i slash
    exact readString_short chars rest (by rw [slash]; decide)
  · rename_i feed
    exact readString_short chars rest (by rw [feed]; decide)
  · rename_i back
    exact readString_short chars rest (by rw [back]; decide)
  · rename_i tab
    exact readString_short chars rest (by rw [tab]; decide)
  · rename_i eight
    exact readString_short chars rest (by rw [← coded eight]; decide)
  · rename_i twelve
    exact readString_short chars rest (by rw [← coded twelve]; decide)
  · rename_i control
    have read := readString_unit chars rest control
    rwa [Char.ofNat_toNat] at read
  · rename_i quote slash _ _ _ _ _ plain
    exact readString_plain chars rest quote slash plain

theorem readString_flatMap (cs chars rest : List Char) :
    readString ⟨chars, none, none⟩ (cs.flatMap escapedChar ++ '"' :: rest)
      = .ok (.ok (String.ofList (chars.reverse ++ cs)), rest) := by
  induction cs generalizing chars with
  | nil => simp [readString, StringState.result]
  | cons c cs ih =>
    rw [List.flatMap_cons, List.append_assoc, readString_escapedChar, ih]
    simp

/-- A printed string is read as that string. -/
theorem readString_text (s : String) :
    ∃ inner, (stringText s).toList = '"' :: inner ∧
      ∀ rest, readString .start (inner ++ rest) = .ok (.ok s, rest) := by
  refine ⟨s.toList.flatMap escapedChar ++ ['"'], String.toList_ofList, fun rest => ?_⟩
  rw [List.append_assoc]
  have read := readString_flatMap s.toList [] rest
  rwa [List.reverse_nil, List.nil_append, String.ofList_toList] at read

/-! ### Lines -/

theorem skipSpace_of_solid {c : Char} {cs : List Char} (solid : isSpace c = false) :
    skipSpace (c :: cs) = c :: cs := List.dropWhile_cons_of_neg (by simp [solid])

/-- A digit is no blank and begins nothing but a numeral. -/
theorem of_isDigit {c : Char} (digit : isDigit c = true) : isSpace c = false ∧ c ≠ 'n' ∧ c ≠ 't' ∧ c ≠ 'f' ∧
    c ≠ '-' ∧ c ≠ ']' := by
  refine ⟨?_, ?_, ?_, ?_, ?_, ?_⟩
  · simp only [isSpace, Bool.or_eq_false_iff, decide_eq_false_iff_not]
    refine ⟨⟨⟨?_, ?_⟩, ?_⟩, ?_⟩ <;> rintro rfl <;> cases digit
  all_goals rintro rfl; cases digit

theorem skipSpace_newLine (depth : Nat) (cs : List Char) :
    skipSpace ((newLine depth).toList ++ cs) = skipSpace cs := by
  refine List.dropWhile_append_of_pos fun c mem => ?_
  rw [newLine, String.toList_ofList, List.mem_cons] at mem
  rcases mem with rfl | blank
  · decide
  · rw [List.eq_of_mem_replicate blank]
    decide

/-- What stands behind a part between brackets: the other parts, each on a line of its own, and the closing
    bracket. -/
def behind (closing : Char) (depth : Nat) : List String → List Char
  | [] => (newLine depth).toList ++ [closing]
  | part :: parts => ',' :: ((newLine (depth + 1)).toList ++ part.toList ++ behind closing depth parts)

theorem intercalate_append_closing (closing : Char) (depth : Nat) (part : String) (parts : List String) :
    (("," ++ newLine (depth + 1)).toList.intercalate ((part :: parts).map String.toList))
        ++ ((newLine depth).toList ++ [closing])
      = part.toList ++ behind closing depth parts := by
  induction parts generalizing part with
  | nil => simp [behind]
  | cons next parts ih =>
    rw [List.map_cons, List.map_cons, List.intercalate_cons_cons, ← List.map_cons, List.append_assoc, ih,
      String.toList_append]
    simp [behind]

theorem toList_indented {opening closing : String} {left right : Char} (first : opening.toList = [left])
    (last : closing.toList = [right]) (depth : Nat) (part : String) (parts : List String) :
    (indented opening closing depth (part :: parts)).toList
      = left :: ((newLine (depth + 1)).toList ++ part.toList ++ behind right depth parts) := by
  have whole := intercalate_append_closing right depth part parts
  simp only [indented, List.isEmpty_cons, Bool.false_eq_true, if_false, String.toList_append, first, last,
    String.toList_intercalate, List.append_assoc] at whole ⊢
  rw [whole]
  rfl

theorem endsNumeral_behind (closing : Char) (depth : Nat) (parts : List String) (rest : List Char) :
    EndsNumeral (behind closing depth parts ++ rest) := by
  intro c mem
  cases parts with
  | nil =>
    rw [behind, newLine, String.toList_ofList] at mem
    cases mem
    decide
  | cons part parts =>
    cases mem
    decide

theorem behind_length_pos (closing : Char) (depth : Nat) (parts : List String) :
    0 < (behind closing depth parts).length := by
  cases parts <;> simp [behind]

/-! ### Lists and objects, place by place -/

/-- The text begins neither with a blank nor with the end of a list. -/
def BeginsItem (text : List Char) : Prop := ∃ c cs, text = c :: cs ∧ isSpace c = false ∧ c ≠ ']'

theorem itemPlace_first (depth : Nat) {text : List Char} (begins : BeginsItem text) (rest : List Char) :
    itemPlace true ((newLine depth).toList ++ (text ++ rest)) = .item (text ++ rest) := by
  obtain ⟨c, cs, rfl, solid, item⟩ := begins
  simp [itemPlace, skipSpace_newLine, skipSpace_of_solid solid]

theorem itemPlace_next (depth : Nat) {text : List Char} (begins : BeginsItem text) (rest : List Char) :
    itemPlace false (',' :: ((newLine depth).toList ++ (text ++ rest))) = .item (text ++ rest) := by
  obtain ⟨c, cs, rfl, solid, item⟩ := begins
  have comma (cs : List Char) : skipSpace (',' :: cs) = ',' :: cs := skipSpace_of_solid (by decide)
  simp [itemPlace, comma, skipSpace_newLine, skipSpace_of_solid solid, item]

theorem itemPlace_done (depth : Nat) (rest : List Char) :
    itemPlace false ((newLine depth).toList ++ ']' :: rest) = .done rest := by
  have bracket : skipSpace (']' :: rest) = ']' :: rest := skipSpace_of_solid (by decide)
  simp [itemPlace, skipSpace_newLine, bracket]

theorem keyPlace_first (depth : Nat) (cs : List Char) :
    keyPlace true ((newLine depth).toList ++ '"' :: cs) = .item cs := by
  have quote : skipSpace ('"' :: cs) = '"' :: cs := skipSpace_of_solid (by decide)
  simp [keyPlace, skipSpace_newLine, quote]

theorem keyPlace_next (depth : Nat) (cs : List Char) :
    keyPlace false (',' :: ((newLine depth).toList ++ '"' :: cs)) = .item cs := by
  have comma (cs : List Char) : skipSpace (',' :: cs) = ',' :: cs := skipSpace_of_solid (by decide)
  have quote : skipSpace ('"' :: cs) = '"' :: cs := skipSpace_of_solid (by decide)
  simp [keyPlace, comma, skipSpace_newLine, quote]

theorem keyPlace_done (depth : Nat) (rest : List Char) :
    keyPlace false ((newLine depth).toList ++ '}' :: rest) = .done rest := by
  have bracket : skipSpace ('}' :: rest) = '}' :: rest := skipSpace_of_solid (by decide)
  simp [keyPlace, skipSpace_newLine, bracket]

section
variable {fuel : Nat} {first : Bool} {cs text next rest : List Char} {t : Tree}

theorem readItems_item {ts : List Tree} (place : itemPlace first cs = .item text)
    (here : readValue fuel text = (t, some next))
    (there : readItems fuel false next = ⟨ts, none, some rest⟩) :
    readItems (fuel + 1) first cs = ⟨t :: ts, none, some rest⟩ := by
  simp only [readItems, place, here, there]

theorem readValue_blank : readValue fuel (' ' :: cs) = readValue fuel cs := by
  have blank : skipSpace (' ' :: cs) = skipSpace cs := List.dropWhile_cons_of_pos (by decide)
  cases fuel with
  | zero => rfl
  | succ fuel => rw [readValue, blank, readValue]

theorem readMembers_member {k : String} {inner : List Char} {ms : Members}
    (place : keyPlace first cs = .item (inner ++ ':' :: ' ' :: text))
    (key : readString .start (inner ++ ':' :: ' ' :: text) = .ok (.ok k, ':' :: ' ' :: text))
    (here : readValue fuel text = (t, some next))
    (there : readMembers fuel false next = ⟨ms, none, some rest⟩) :
    readMembers (fuel + 1) first cs = ⟨(.ok k, t) :: ms, none, some rest⟩ := by
  have colon : skipSpace (':' :: ' ' :: text) = ':' :: ' ' :: text := skipSpace_of_solid (by decide)
  have named : readKey (inner ++ ':' :: ' ' :: text) = .key (.ok k) (' ' :: text) := by
    simp only [readKey, key, colon]
  simp only [readMembers, place, named, readValue_blank, here, there]

end

/-! ### Values -/

/-- The text that is printed of a value is read as the tree of that value, whatever stands behind it. -/
structure Value.ReadsBack (v : Value) : Prop where
  begins : ∀ depth, BeginsItem (v.prettyAt depth).toList
  reads : ∀ (depth fuel : Nat) (rest : List Char), EndsNumeral rest →
    2 * (v.prettyAt depth).toList.length ≤ fuel →
    readValue fuel ((v.prettyAt depth).toList ++ rest) = (v.toTree, some rest)

/-- The items of a list that stand behind another item are read up to the end of the list. -/
def ItemsReadBack (vs : List Value) : Prop :=
  ∀ (depth fuel : Nat) (rest : List Char),
    2 * (behind ']' depth (prettyItems (depth + 1) vs)).length ≤ fuel →
    readItems fuel false (behind ']' depth (prettyItems (depth + 1) vs) ++ rest)
      = ⟨itemsToTrees vs, none, some rest⟩

/-- The same for the members of an object. -/
def MembersReadBack (ms : Object) : Prop :=
  ∀ (depth fuel : Nat) (rest : List Char),
    2 * (behind '}' depth (prettyMembers (depth + 1) ms)).length ≤ fuel →
    readMembers fuel false (behind '}' depth (prettyMembers (depth + 1) ms) ++ rest)
      = ⟨membersToTrees ms, none, some rest⟩

namespace Value.ReadsBack

/-- A value on one line. -/
theorem of_line {v : Value} {c : Char} {cs : List Char} (text : ∀ depth, (v.prettyAt depth).toList = c :: cs)
    (solid : isSpace c = false) (item : c ≠ ']')
    (reads : ∀ fuel rest, EndsNumeral rest → readValue (fuel + 2) (c :: cs ++ rest) = (v.toTree, some rest)) :
    v.ReadsBack where
  begins depth := ⟨c, cs, text depth, solid, item⟩
  reads depth fuel rest ends enough := by
    rw [text depth] at enough ⊢
    -- one character is enough for two calls, and an empty list needs no more
    obtain ⟨fuel, rfl⟩ : ∃ k, fuel = k + 2 := ⟨fuel - 2, by simp only [List.length_cons] at enough; omega⟩
    exact reads fuel rest ends

theorem null : Value.null.ReadsBack := by
  have text (depth : Nat) : (Value.null.prettyAt depth).toList = ['n', 'u', 'l', 'l'] := by simp [prettyAt]
  refine of_line text (by decide) (by decide) fun fuel rest _ => ?_
  rw [List.cons_append, readValue, skipSpace_of_solid (by decide)]
  rfl

theorem bool (b : Bool) : (Value.bool b).ReadsBack := by
  cases b with
  | false =>
    have text (depth : Nat) : ((Value.bool false).prettyAt depth).toList = ['f', 'a', 'l', 's', 'e'] := by
      simp [prettyAt]
    refine of_line text (by decide) (by decide) fun fuel rest _ => ?_
    rw [List.cons_append, readValue, skipSpace_of_solid (by decide)]
    rfl
  | true =>
    have text (depth : Nat) : ((Value.bool true).prettyAt depth).toList = ['t', 'r', 'u', 'e'] := by
      simp [prettyAt]
    refine of_line text (by decide) (by decide) fun fuel rest _ => ?_
    rw [List.cons_append, readValue, skipSpace_of_solid (by decide)]
    rfl

theorem num {n : Number} (legible : n.isLegible = true) : (Value.num n).ReadsBack := by
  rw [Number.isLegible] at legible
  split at legible
  · -- behind a sign
    rename_i cs text
    obtain ⟨p, read, told⟩ := Number.isReadFrom_iff.mp legible
    refine of_line (fun _ => text) (by decide) (by decide) fun fuel rest ends => ?_
    rw [List.cons_append, readValue, skipSpace_of_solid (by decide)]
    simp [readNumeral_append ends read, Reading.numeral, told, Value.toTree]
  · rename_i text _
    obtain ⟨p, read, told⟩ := Number.isReadFrom_iff.mp legible
    obtain ⟨c, ds, front, digit⟩ := exists_digit_of_readNumeral read
    obtain ⟨solid, null, yes, no, sign, item⟩ := of_isDigit digit
    rw [front] at read
    refine of_line (fun _ => front) solid item fun fuel rest ends => ?_
    have found : readNumeral false (c :: (ds ++ rest)) = .ok (p, rest) := readNumeral_append ends read
    rw [List.cons_append, readValue, skipSpace_of_solid solid]
    simp [null, yes, no, sign, digit, found, Reading.numeral, told, Value.toTree]

theorem str (s : String) : (Value.str s).ReadsBack := by
  obtain ⟨inner, text, read⟩ := readString_text s
  refine of_line (fun _ => text) (by decide) (by decide) fun fuel rest _ => ?_
  rw [List.cons_append, readValue, skipSpace_of_solid (by decide)]
  simp [isDigit, read, Reading.string, Value.toTree]

theorem arr_nil : (Value.arr []).ReadsBack := by
  have text (depth : Nat) : ((Value.arr []).prettyAt depth).toList = ['[', ']'] := by
    simp [prettyAt, prettyItems, indented]
  refine of_line text (by decide) (by decide) fun fuel rest _ => ?_
  rw [List.cons_append, readValue, skipSpace_of_solid (by decide)]
  rfl

theorem obj_nil : (Value.obj []).ReadsBack := by
  have text (depth : Nat) : ((Value.obj []).prettyAt depth).toList = ['{', '}'] := by
    simp [prettyAt, prettyMembers, indented]
  refine of_line text (by decide) (by decide) fun fuel rest _ => ?_
  rw [List.cons_append, readValue, skipSpace_of_solid (by decide)]
  rfl

theorem arr_cons {v : Value} {vs : List Value} (here : v.ReadsBack) (there : ItemsReadBack vs) :
    (Value.arr (v :: vs)).ReadsBack := by
  have text (depth : Nat) : ((Value.arr (v :: vs)).prettyAt depth).toList
      = '[' :: ((newLine (depth + 1)).toList ++ (v.prettyAt (depth + 1)).toList
        ++ behind ']' depth (prettyItems (depth + 1) vs)) := by
    rw [prettyAt, prettyItems]
    exact toList_indented rfl rfl depth _ _
  refine ⟨fun depth => ⟨_, _, text depth, by decide, by decide⟩, fun depth fuel rest ends enough => ?_⟩
  rw [text] at enough ⊢
  simp only [List.length_cons, List.length_append] at enough
  obtain ⟨fuel, rfl⟩ : ∃ k, fuel = k + 2 := ⟨fuel - 2, by omega⟩
  have read := readItems_item (itemPlace_first (depth + 1) (here.begins (depth + 1)) _)
    (here.reads (depth + 1) fuel _ (endsNumeral_behind ']' depth _ rest) (by omega))
    (there depth fuel rest (by omega))
  rw [List.cons_append, readValue, skipSpace_of_solid (by decide)]
  simp [isDigit, read, Value.toTree, itemsToTrees]

theorem obj_cons (k : String) {v : Value} {ms : Object} (here : v.ReadsBack) (there : MembersReadBack ms) :
    (Value.obj ((k, v) :: ms)).ReadsBack := by
  obtain ⟨inner, quoted, key⟩ := readString_text k
  have member (depth : Nat) : (stringText k ++ ": " ++ v.prettyAt depth).toList
      = '"' :: (inner ++ ':' :: ' ' :: (v.prettyAt depth).toList) := by simp [quoted]
  have text (depth : Nat) : ((Value.obj ((k, v) :: ms)).prettyAt depth).toList
      = '{' :: ((newLine (depth + 1)).toList ++ (stringText k ++ ": " ++ v.prettyAt (depth + 1)).toList
        ++ behind '}' depth (prettyMembers (depth + 1) ms)) := by
    rw [prettyAt, prettyMembers]
    exact toList_indented rfl rfl depth _ _
  refine ⟨fun depth => ⟨_, _, text depth, by decide, by decide⟩, fun depth fuel rest ends enough => ?_⟩
  rw [text, member] at enough ⊢
  simp only [List.length_cons, List.length_append] at enough
  obtain ⟨fuel, rfl⟩ : ∃ k, fuel = k + 2 := ⟨fuel - 2, by omega⟩
  have read := readMembers_member (keyPlace_first (depth + 1) _) (key _)
    (here.reads (depth + 1) fuel _ (endsNumeral_behind '}' depth _ rest) (by omega))
    (there depth fuel rest (by omega))
  rw [List.cons_append, readValue, skipSpace_of_solid (by decide)]
  simp [isDigit, read, Value.toTree, membersToTrees]

end Value.ReadsBack

theorem ItemsReadBack.nil : ItemsReadBack [] := by
  intro depth fuel rest enough
  have some_there := behind_length_pos ']' depth []
  obtain ⟨fuel, rfl⟩ : ∃ k, fuel = k + 1 := ⟨fuel - 1, by simp only [prettyItems] at enough; omega⟩
  rw [prettyItems, behind, List.append_assoc, readItems]
  simp [itemPlace_done, itemsToTrees]

theorem ItemsReadBack.cons {v : Value} {vs : List Value} (here : v.ReadsBack) (there : ItemsReadBack vs) :
    ItemsReadBack (v :: vs) := by
  intro depth fuel rest enough
  simp only [prettyItems, behind, List.length_cons, List.length_append] at enough
  obtain ⟨fuel, rfl⟩ : ∃ k, fuel = k + 1 := ⟨fuel - 1, by omega⟩
  have read := readItems_item (itemPlace_next (depth + 1) (here.begins (depth + 1)) _)
    (here.reads (depth + 1) fuel _ (endsNumeral_behind ']' depth _ rest) (by omega))
    (there depth fuel rest (by omega))
  simpa [prettyItems, behind, itemsToTrees] using read

theorem MembersReadBack.nil : MembersReadBack [] := by
  intro depth fuel rest enough
  have some_there := behind_length_pos '}' depth []
  obtain ⟨fuel, rfl⟩ : ∃ k, fuel = k + 1 := ⟨fuel - 1, by simp only [prettyMembers] at enough; omega⟩
  rw [prettyMembers, behind, List.append_assoc, readMembers]
  simp [keyPlace_done, membersToTrees]

theorem MembersReadBack.cons (k : String) {v : Value} {ms : Object} (here : v.ReadsBack)
    (there : MembersReadBack ms) : MembersReadBack ((k, v) :: ms) := by
  intro depth fuel rest enough
  obtain ⟨inner, quoted, key⟩ := readString_text k
  simp only [prettyMembers, behind, List.length_cons, List.length_append, String.toList_append] at enough
  obtain ⟨fuel, rfl⟩ : ∃ k, fuel = k + 1 := ⟨fuel - 1, by omega⟩
  have read := readMembers_member (keyPlace_next (depth + 1) _) (key _)
    (here.reads (depth + 1) fuel _ (endsNumeral_behind '}' depth _ rest) (by omega))
    (there depth fuel rest (by omega))
  simpa [prettyMembers, behind, quoted, membersToTrees] using read

mutual

/-- A value whose numbers are told by their numerals reads back, constructor by constructor. -/
theorem readsBack_of_isLegible : ∀ v : Value, v.isLegible = true → v.ReadsBack
  | .null, _ => .null
  | .bool b, _ => .bool b
  | .num _, legible => .num legible
  | .str s, _ => .str s
  | .arr [], _ => .arr_nil
  | .arr (v :: vs), legible => by
      obtain ⟨here, there⟩ := Bool.and_eq_true_iff.mp legible
      exact .arr_cons (readsBack_of_isLegible v here) (itemsReadBack_of_legibleItems vs there)
  | .obj [], _ => .obj_nil
  | .obj ((k, v) :: ms), legible => by
      obtain ⟨here, there⟩ := Bool.and_eq_true_iff.mp legible
      exact .obj_cons k (readsBack_of_isLegible v here) (membersReadBack_of_legibleMembers ms there)

theorem itemsReadBack_of_legibleItems : ∀ vs : List Value, legibleItems vs = true → ItemsReadBack vs
  | [], _ => .nil
  | v :: vs, legible => by
      obtain ⟨here, there⟩ := Bool.and_eq_true_iff.mp legible
      exact .cons (readsBack_of_isLegible v here) (itemsReadBack_of_legibleItems vs there)

theorem membersReadBack_of_legibleMembers : ∀ ms : Object, legibleMembers ms = true → MembersReadBack ms
  | [], _ => .nil
  | (k, v) :: ms, legible => by
      obtain ⟨here, there⟩ := Bool.and_eq_true_iff.mp legible
      exact .cons k (readsBack_of_isLegible v here) (membersReadBack_of_legibleMembers ms there)

end

/-- The printed text of a value is read as the tree of that value, with nothing behind it. -/
theorem read_pretty {v : Value} (legible : v.isLegible = true) : Document.read v.pretty = ⟨v.toTree, false⟩ := by
  have ends : EndsNumeral [] := fun _ none => nomatch none
  have read := (readsBack_of_isLegible v legible).reads 0 (2 * v.pretty.toList.length + 2) [] ends
    (Nat.le_add_right ..)
  rw [List.append_nil] at read
  simp only [Document.read, Value.pretty] at read ⊢
  rw [read]
  rfl

/-- The numbers of the value are told by their numerals, and it is nested so many levels deep at most. -/
structure Value.Fits (levels : Nat) (v : Value) : Prop where
  legible : v.isLegible = true
  shallow : v.nesting ≤ levels

theorem Value.fits_str (levels : Nat) (s : String) : (Value.str s).Fits levels := ⟨rfl, Nat.zero_le levels⟩

theorem Value.fits_arr {levels : Nat} {vs : List Value} (each : ∀ v ∈ vs, v.Fits levels) :
    (Value.arr vs).Fits (levels + 1) := by
  have items : legibleItems vs = true ∧ nestingOfItems vs ≤ levels := by
    induction vs with
    | nil => exact ⟨rfl, Nat.zero_le levels⟩
    | cons v vs ih =>
      obtain ⟨here, there⟩ := List.forall_mem_cons.mp each
      exact ⟨Bool.and_eq_true_iff.mpr ⟨here.legible, (ih there).1⟩, Nat.max_le.mpr ⟨here.shallow, (ih there).2⟩⟩
  exact ⟨items.1, Nat.succ_le_succ items.2⟩

theorem Value.fits_obj {levels : Nat} {ms : Object} (each : ∀ m ∈ ms, m.2.Fits levels) :
    (Value.obj ms).Fits (levels + 1) := by
  have members : legibleMembers ms = true ∧ nestingOfMembers ms ≤ levels := by
    induction ms with
    | nil => exact ⟨rfl, Nat.zero_le levels⟩
    | cons m ms ih =>
      obtain ⟨here, there⟩ := List.forall_mem_cons.mp each
      exact ⟨Bool.and_eq_true_iff.mpr ⟨here.legible, (ih there).1⟩, Nat.max_le.mpr ⟨here.shallow, (ih there).2⟩⟩
  exact ⟨members.1, Nat.succ_le_succ members.2⟩

/-- Whoever reads the printed text of a value gets the value in canonical form. -/
theorem ofText_pretty {v : Value} (fits : v.Fits 127) : Decoder.ofText .value v.pretty = .ok v.canonical := by
  have value : v.toTree.value ⟨.text, 0⟩ = .ok v.canonical :=
    value_toTree_of_hasRoom v _ fun _ => by simpa using fits.shallow
  rw [Decoder.ofText, Decoder.ofDocument, read_pretty fits.legible, Decoder.value, value]
  rfl

end Flowgraph.Json
