import Flowgraph.Json.Value

/-! JSON text of a value, compact or on indented lines. Members are written in the order they are
    listed. -/

namespace Flowgraph.Json

/-- The two hexadecimal digits of a number below 256. -/
def hexByte (n : Nat) : List Char := [Nat.digitChar (n / 16 % 16), Nat.digitChar (n % 16)]

/-- One character inside a JSON string. -/
def escapedChar (c : Char) : List Char :=
  if c = '"' then ['\\', '"']
  else if c = '\\' then ['\\', '\\']
  else if c = '\n' then ['\\', 'n']
  else if c = '\r' then ['\\', 'r']
  else if c = '\t' then ['\\', 't']
  else if c.toNat = 8 then ['\\', 'b']
  else if c.toNat = 12 then ['\\', 'f']
  else if c.toNat < 32 then '\\' :: 'u' :: '0' :: '0' :: hexByte c.toNat
  else [c]

/-- A JSON string with its quotes. -/
def stringText (s : String) : String :=
  String.ofList ('"' :: s.toList.flatMap escapedChar ++ ['"'])

/-- The numeral of a number; a double without one is written `null`. -/
def Number.text : Number → String
  | .int n => toString n
  | .float x => if x.isFinite then x.text else "null"

/-- What an opening and a closing bracket enclose, with commas between. -/
def enclosed (opening closing : String) (parts : List String) : String :=
  opening ++ String.intercalate "," parts ++ closing

mutual

/-- The text without any space. -/
def Value.compact : Value → String
  | .null => "null"
  | .bool true => "true"
  | .bool false => "false"
  | .num n => n.text
  | .str s => stringText s
  | .arr items => enclosed "[" "]" (compactItems items)
  | .obj members => enclosed "\x7b" "\x7d" (compactMembers members)

def compactItems : List Value → List String
  | [] => []
  | v :: vs => v.compact :: compactItems vs

def compactMembers : List (String × Value) → List String
  | [] => []
  | (k, v) :: ms => (stringText k ++ ":" ++ v.compact) :: compactMembers ms

end

/-- A line break and the indentation of a depth, two blanks for each level. -/
def newLine (depth : Nat) : String := String.ofList ('\n' :: List.replicate (2 * depth) ' ')

/-- The parts on lines of their own, one level deeper than the brackets; nothing between brackets that
    enclose nothing. -/
def indented (opening closing : String) (depth : Nat) (parts : List String) : String :=
  if parts.isEmpty then opening ++ closing
  else opening ++ newLine (depth + 1) ++ String.intercalate ("," ++ newLine (depth + 1)) parts
    ++ newLine depth ++ closing

mutual

/-- The text of a value that stands at the given depth, each item and member on a line of its own. -/
def Value.prettyAt (depth : Nat) : Value → String
  | .null => "null"
  | .bool true => "true"
  | .bool false => "false"
  | .num n => n.text
  | .str s => stringText s
  | .arr items => indented "[" "]" depth (prettyItems (depth + 1) items)
  | .obj members => indented "\x7b" "\x7d" depth (prettyMembers (depth + 1) members)

def prettyItems (depth : Nat) : List Value → List String
  | [] => []
  | v :: vs => v.prettyAt depth :: prettyItems depth vs

def prettyMembers (depth : Nat) : List (String × Value) → List String
  | [] => []
  | (k, v) :: ms => (stringText k ++ ": " ++ v.prettyAt depth) :: prettyMembers depth ms

end

/-- The text on indented lines. -/
def Value.pretty (v : Value) : String := v.prettyAt 0

end Flowgraph.Json
