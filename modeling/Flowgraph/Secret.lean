import Flowgraph.Text.Blank
import Flowgraph.Text.Lowercase
import Flowgraph.Workflow
import Flowgraph.Path

/-! Secrets left in a document: long texts under keys that sound like credentials. Findings are warnings
    and keep nothing from being compiled. -/

namespace Flowgraph

open Json

/-- What counts as a secret: the words a key may contain, in small letters, and the length that a text has
    to exceed. -/
structure SecretScanner where
  keywords : List String
  minLength : Nat

namespace SecretScanner

def standard : SecretScanner := ⟨["password", "secret", "key", "token", "api_key"], 10⟩

def withKeyword (s : SecretScanner) (word : String) : SecretScanner :=
  { s with keywords := s.keywords ++ [Text.lowercase word] }

def withMinLength (s : SecretScanner) (n : Nat) : SecretScanner := { s with minLength := n }

/-- Whether a key contains one of the words. -/
def isSensitiveKey (s : SecretScanner) (key : String) : Bool :=
  s.keywords.any fun word => Text.contains (Text.lowercase key) word

/-- How often two opening braces occur, none of them counted twice. -/
def openings : List Char → Nat
  | [] => 0
  | '{' :: '{' :: rest => openings rest + 1
  | _ :: rest => openings rest

/-- A text that starts as a placeholder, ends as one and opens none in between. -/
def isBarePlaceholder (text : String) : Bool :=
  let cs := Text.trimChars text.toList
  ['{', '{'].isPrefixOf cs && ['}', '}'].isSuffixOf cs && openings cs == 1

/-- Whether a value under a sensitive key is a secret. -/
def isSecret (s : SecretScanner) : Value → Bool
  | .str text => s.minLength < text.length && !isBarePlaceholder text
  | _ => false

/-- The finding for a member, if it is one. -/
def check (s : SecretScanner) (key path : String) (v : Value) : List Diagnostic :=
  if s.isSensitiveKey key && s.isSecret v then
    [⟨.potentialSecret, path, "Field '" ++ key ++ "' looks like an inline secret",
      some "Store credentials in a connection instead of the workflow"⟩]
  else []

mutual

/-- The findings in a value at a path. What is under `exec` repeats what stands above it, and is passed
    over. -/
def findings (s : SecretScanner) (path : String) : Value → List Diagnostic
  | .obj members => memberFindings s path members
  | .arr items => itemFindings s path 0 items
  | .null | .bool _ | .num _ | .str _ => []

def memberFindings (s : SecretScanner) (path : String) : List (String × Value) → List Diagnostic
  | [] => []
  | (key, v) :: ms =>
    let here :=
      if key = "exec" then []
      else s.check key (Path.below path key) v ++ findings s (Path.below path key) v
    here ++ memberFindings s path ms

def itemFindings (s : SecretScanner) (path : String) (i : Nat) : List Value → List Diagnostic
  | [] => []
  | v :: vs => findings s (indexed path i) v ++ itemFindings s path (i + 1) vs

end

/-- The warnings for a document. -/
def scan (s : SecretScanner) (doc : Value) : Diagnostics :=
  { Diagnostics.empty with warnings := s.findings "" doc }

end SecretScanner

end Flowgraph
