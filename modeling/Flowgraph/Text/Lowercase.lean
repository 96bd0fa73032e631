import Flowgraph.Text.CaseTable

/-! Text in small letters. A capital sigma depends on its surroundings: at the end of a word it becomes
    the final form, elsewhere the usual one. -/

namespace Flowgraph.Text

def isCased (c : Char) : Bool := inRanges casedRanges c.toNat

def isCaseIgnorable (c : Char) : Bool := inRanges caseIgnorableRanges c.toNat

/-- The small form of a character, apart from its surroundings. One capital has two characters for
    its small form: the dotted capital I, which keeps its dot. -/
def smallForm (c : Char) : List Char :=
  if c.toNat < 0x80 then [c.toLower]
  else if c.toNat = 0x130 then ['i', Char.ofNat 0x307]
  else match capitalRuns.find? (·.holds c.toNat) with
    | some r => [Char.ofNat (c.toNat + r.shift).toNat]
    | none => [c]

/-- Whether the nearest character that counts is one that carries case. -/
def nextIsCased (cs : List Char) : Bool :=
  match cs.dropWhile isCaseIgnorable with
  | c :: _ => isCased c
  | [] => false

/-- The small letters of `cs`, where `before` holds the characters already passed, the last first. -/
def lowercaseFrom (before : List Char) : List Char → List Char
  | [] => []
  | c :: cs =>
    let small :=
      if c = 'Σ' then
        if nextIsCased before && !nextIsCased cs then ['ς'] else ['σ']
      else smallForm c
    small ++ lowercaseFrom (c :: before) cs

/-- The text in small letters. -/
def lowercase (s : String) : String := String.ofList (lowercaseFrom [] s.toList)

end Flowgraph.Text
