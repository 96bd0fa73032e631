import Flowgraph.Json.Print

/-! Placeholders in text: two opening braces, a key, two closing braces. An answer to the key takes the
    place of the token. A text is scanned once from its start, so what an answer brings in is never looked
    at again. -/

namespace Flowgraph.Placeholder

open Json

/-- The text before the first two braces of a kind that stand next to each other, and the text behind
    them. -/
def cutAt (brace : Char) : List Char → Option (List Char × List Char)
  | a :: b :: rest =>
    if a = brace ∧ b = brace then some ([], rest)
    else (cutAt brace (b :: rest)).map fun cut => (a :: cut.1, cut.2)
  | _ => none

theorem eq_of_cutAt {brace : Char} {cs before behind : List Char}
    (h : cutAt brace cs = some (before, behind)) : cs = before ++ brace :: brace :: behind := by
  fun_induction cutAt brace cs generalizing before behind with
  | case1 a b rest both => cases h; rw [both.1, both.2]; rfl
  | case2 a b rest _ ih =>
    obtain ⟨cut, there, same⟩ := Option.map_eq_some_iff.mp h
    cases same
    rw [ih there, List.cons_append]
  | case3 => cases h

theorem cutAt_length {brace : Char} {cs before behind : List Char}
    (h : cutAt brace cs = some (before, behind)) : behind.length < cs.length := by
  rw [eq_of_cutAt h]
  simp only [List.length_append, List.length_cons]
  omega

/-- Whether two opening braces stand next to each other somewhere. -/
def holdsOpening (cs : List Char) : Bool := (cutAt '{' cs).isSome

/-- An answer as text: a string as it is, any other value as JSON. -/
def answerText : Value → String
  | .str s => s
  | v => v.compact

/-- The answer to a key, or the token as it stands if there is none. -/
def fillToken (answers : Object) (key : List Char) : List Char :=
  match Object.member? answers (String.ofList key) with
  | some v => (answerText v).toList
  | none => '{' :: '{' :: key ++ ['}', '}']

/-- The text with the answers filled in. Two opening braces start a token if two closing ones follow and no
    two opening ones stand between; otherwise they stand for themselves. -/
def renderChars (answers : Object) (text : List Char) : List Char :=
  match _opened : cutAt '{' text with
  | none => text
  | some (before, after) =>
    match _closed : cutAt '}' after with
    | none => before ++ '{' :: '{' :: after
    | some (key, rest) =>
      if holdsOpening key then before ++ '{' :: '{' :: renderChars answers after
      else before ++ fillToken answers key ++ renderChars answers rest
termination_by text.length
decreasing_by
  · exact cutAt_length _opened
  · exact Nat.lt_trans (cutAt_length _closed) (cutAt_length _opened)

def render (template : String) (answers : Object) : String :=
  String.ofList (renderChars answers template.toList)

/-- The keys of the tokens in a text, in order. -/
def keysIn (text : List Char) : List String :=
  match _opened : cutAt '{' text with
  | none => []
  | some (_, after) =>
    match _closed : cutAt '}' after with
    | none => []
    | some (key, rest) =>
      if holdsOpening key then keysIn after else String.ofList key :: keysIn rest
termination_by text.length
decreasing_by
  · exact cutAt_length _opened
  · exact Nat.lt_trans (cutAt_length _closed) (cutAt_length _opened)

def keys (text : String) : List String := keysIn text.toList

mutual

/-- Fills the answers into every string of a value; keys of objects are left alone. -/
def apply (answers : Object) : Value → Value
  | .str s => .str (if holdsOpening s.toList then render s answers else s)
  | .arr items => .arr (applyItems answers items)
  | .obj members => .obj (applyMembers answers members)
  | .null => .null
  | .bool b => .bool b
  | .num n => .num n

def applyItems (answers : Object) : List Value → List Value
  | [] => []
  | v :: vs => apply answers v :: applyItems answers vs

def applyMembers (answers : Object) : List (String × Value) → List (String × Value)
  | [] => []
  | (k, v) :: ms => (k, apply answers v) :: applyMembers answers ms

end

end Flowgraph.Placeholder
