/-! Cutting text at a separator. -/

namespace Flowgraph.Text

/-- The stretches between separators, one more than there are separators. -/
def splitChars (sep : Char) : List Char → List (List Char)
  | [] => [[]]
  | c :: cs =>
    if c = sep then [] :: splitChars sep cs
    else match splitChars sep cs with
      | [] => [[c]]
      | s :: ss => (c :: s) :: ss

/-- The texts between separators. -/
def split (sep : Char) (s : String) : List String := (splitChars sep s.toList).map String.ofList

/-- Whether one text occurs in another. -/
def containsChars (cs part : List Char) : Bool :=
  match cs with
  | [] => part.isEmpty
  | c :: rest => part.isPrefixOf (c :: rest) || containsChars rest part

def contains (s part : String) : Bool := containsChars s.toList part.toList

end Flowgraph.Text
