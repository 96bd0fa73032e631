import Flowgraph.Text.CaseTable
import Flowgraph.Text.ShapeTable

/-! Quoted text as messages show it: the text between double quotes, with a backslash before a quote or
    a backslash, short escapes for the common controls, and the code point in braces for every
    character that has no shape of its own. -/

namespace Flowgraph.Text

/-- The code point in lower-case hexadecimal. -/
def hexDigits (n : Nat) : String := String.ofList (Nat.toDigits 16 n)

/-- One character inside quotes. -/
def quotedChar (c : Char) : String :=
  if c = '"' then "\\\""
  else if c = '\\' then "\\\\"
  else if c = '\t' then "\\t"
  else if c = '\r' then "\\r"
  else if c = '\n' then "\\n"
  else if c.toNat = 0 then "\\0"
  else if 0x20 ≤ c.toNat ∧ c.toNat < 0x7F then c.toString
  else if inRanges shapelessRanges c.toNat then "\\u\x7b" ++ hexDigits c.toNat ++ "\x7d"
  else c.toString

/-- The text between double quotes, every character as `quotedChar` shows it. -/
def quoted (s : String) : String :=
  "\"" ++ String.join (s.toList.map quotedChar) ++ "\""

end Flowgraph.Text
