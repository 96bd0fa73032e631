import Flowgraph.Json.Value

/-! JSON text as a reader finds it, faults included.

    What is wrong with a text depends on what is wanted from it: a type error in front of a syntax
    error is reported first, and a value that nobody asked for is only passed over, more leniently. So
    reading comes in two steps. The first turns the text into a `Tree`, which keeps the members of an
    object in the order of the text and marks the place where the text stops being JSON; the second
    looks into the tree for what it wants, and meets the faults in the order of the text. -/

namespace Flowgraph.Json

/-- What can be wrong with a text as JSON. -/
inductive Fault where
  | endInValue
  | endInList
  | endInObject
  | endInString
  | expectedValue
  | expectedWord
  | expectedColon
  | expectedListEnd
  | expectedObjectEnd
  | trailingComma
  | trailingCharacters
  | keyNotString
  | invalidNumber
  | numberOutOfRange
  | invalidEscape
  | controlCharacter
  | loneSurrogate
  | unfinishedSurrogate
  | tooDeep
  deriving DecidableEq, Repr

def Fault.message : Fault → String
  | .endInValue => "EOF while parsing a value"
  | .endInList => "EOF while parsing a list"
  | .endInObject => "EOF while parsing an object"
  | .endInString => "EOF while parsing a string"
  | .expectedValue => "expected value"
  | .expectedWord => "expected ident"
  | .expectedColon => "expected `:`"
  | .expectedListEnd => "expected `,` or `]`"
  | .expectedObjectEnd => "expected `,` or `\x7d`"
  | .trailingComma => "trailing comma"
  | .trailingCharacters => "trailing characters"
  | .keyNotString => "key must be a string"
  | .invalidNumber => "invalid number"
  | .numberOutOfRange => "number out of range"
  | .invalidEscape => "invalid escape"
  | .controlCharacter => "control character (\\u0000-\\u001F) found while parsing a string"
  | .loneSurrogate => "lone leading surrogate in hex escape"
  | .unfinishedSurrogate => "unexpected end of hex escape"
  | .tooDeep => "recursion limit exceeded"

/-- The place where a text stops being JSON: the fault met by who wants the value there, and the one
    met by who passes over it. -/
structure Break where
  wanted : Fault
  passed : Fault
  deriving DecidableEq, Repr

/-- The same fault for both. -/
def Break.both (f : Fault) : Break := ⟨f, f⟩

/-- A text as read. A number or a string can be well-formed and still have no value: the numeral is out
    of range, the escapes spell half a surrogate pair. That is a fault only for who wants the value.
    Where the text breaks off it may have begun a word or a numeral and not spelt it to its end
    (`misspelt`), or be without a value for another reason (`broken`). -/
inductive Tree where
  | null
  | bool (b : Bool)
  | num (n : Except Fault Number)
  | str (s : Except Fault String)
  | arr (items : List Tree) (ending : Option Break)
  | obj (members : List (Except Fault String × Tree)) (ending : Option Break)
  | misspelt (b : Break)
  | broken (b : Break)
  deriving Inhabited

mutual

/-- A value as a tree without faults. -/
def Value.toTree : Value → Tree
  | .null => .null
  | .bool b => .bool b
  | .num n => .num (.ok n)
  | .str s => .str (.ok s)
  | .arr items => .arr (itemsToTrees items) none
  | .obj members => .obj (membersToTrees members) none

def itemsToTrees : List Value → List Tree
  | [] => []
  | v :: vs => v.toTree :: itemsToTrees vs

def membersToTrees : List (String × Value) → List (Except Fault String × Tree)
  | [] => []
  | (k, v) :: ms => (.ok k, v.toTree) :: membersToTrees ms

end

mutual

/-- The first fault met by passing over a tree. -/
def Tree.passingFault? : Tree → Option Fault
  | .null | .bool _ | .num _ | .str _ => none
  | .misspelt b | .broken b => some b.passed
  | .arr items ending => passingItems? items <|> ending.map (·.passed)
  | .obj members ending => passingMembers? members <|> ending.map (·.passed)

def passingItems? : List Tree → Option Fault
  | [] => none
  | t :: ts => t.passingFault? <|> passingItems? ts

def passingMembers? : List (Except Fault String × Tree) → Option Fault
  | [] => none
  | (_, t) :: ms => t.passingFault? <|> passingMembers? ms

end

end Flowgraph.Json
