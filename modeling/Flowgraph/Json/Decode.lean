import Flowgraph.Json.Print
import Flowgraph.Json.Read
import Flowgraph.Text.Blank
import Flowgraph.Text.Quoted

/-! Typed reading: what a tree has to look like to stand for a datum, and what is reported when it does
    not. A decoder meets the faults of a text in the order of the text. -/

namespace Flowgraph.Json

/-- What was found in the place of what was wanted. -/
inductive Found where
  | null
  | bool (b : Bool)
  | num (n : Number)
  | str (s : String)
  | sequence
  | map
  deriving DecidableEq

def Found.message : Found → String
  | .null => "null"
  | .bool true => "boolean `true`"
  | .bool false => "boolean `false`"
  | .num (.int n) => s!"integer `{n}`"
  | .num (.float x) => "floating point `" ++ x.text ++ "`"
  | .str s => "string " ++ Text.quoted s
  | .sequence => "sequence"
  | .map => "map"

/-- Why a tree does not stand for the datum that was wanted. -/
inductive DecodeError where
  | fault (f : Fault)
  | invalidType (found : Found) (wanted : String)
  | invalidValue (found : Found) (wanted : String)
  | invalidLength (length : Nat) (wanted : String)
  | missingField (name : String)
  | duplicateField (name : String)
  | unknownVariant (name : String) (known : List String)
  | noVariant (choice : String)
  | notANumber (text : String) (flaw : Numeral.Flaw)
  deriving DecidableEq

/-- A name between backquotes. -/
def ticked (name : String) : String := "`" ++ name ++ "`"

/-- The choice among known names: one, one or the other, one of several. -/
def oneOf : List String → String
  | [a] => ticked a
  | [a, b] => ticked a ++ " or " ++ ticked b
  | names => "one of " ++ String.intercalate ", " (names.map ticked)

def DecodeError.message : DecodeError → String
  | .fault f => f.message
  | .invalidType found wanted => "invalid type: " ++ found.message ++ ", expected " ++ wanted
  | .invalidValue found wanted => "invalid value: " ++ found.message ++ ", expected " ++ wanted
  | .invalidLength n wanted => s!"invalid length {n}, expected " ++ wanted
  | .missingField name => "missing field " ++ ticked name
  | .duplicateField name => "duplicate field " ++ ticked name
  | .unknownVariant name known => "unknown variant " ++ ticked name ++ ", expected " ++ oneOf known
  | .noVariant choice => "data did not match any variant of untagged enum " ++ choice
  | .notANumber text flaw => "'" ++ text ++ "' is not a number: " ++ flaw.message

/-- Where a tree comes from: a text, a value, or a value set aside until it was known what to make of
    it. The three report a few errors in different words, and only a text is limited in depth. -/
inductive Origin where
  | text
  | value
  | setAside
  deriving DecidableEq

/-- The place of a tree: where it comes from, and how many lists and objects enclose it. -/
structure Place where
  origin : Origin
  depth : Nat
  deriving DecidableEq

/-- The place inside a list or object; a text nests them 127 deep at most. -/
def Place.enter (p : Place) : Except DecodeError Place :=
  if p.origin = .text ∧ 127 ≤ p.depth then .error (.fault .tooDeep)
  else .ok { p with depth := p.depth + 1 }

/-- Reads a datum of type `α` from a tree. -/
abbrev Decoder (α : Type) := Place → Tree → Except DecodeError α

/-- The error for a tree that is not what was wanted; a tree without a value reports its own fault. -/
def mismatch (wanted : String) : Tree → DecodeError
  | .null => .invalidType .null wanted
  | .bool b => .invalidType (.bool b) wanted
  | .num (.ok n) => .invalidType (.num n) wanted
  | .num (.error f) => .fault f
  | .str (.ok s) => .invalidType (.str s) wanted
  | .str (.error f) => .fault f
  | .arr _ _ => .invalidType .sequence wanted
  | .obj _ _ => .invalidType .map wanted
  | .misspelt b | .broken b => .fault b.wanted

/-- The fault of a list or object that breaks off. -/
def checkEnding (ending : Option Break) : Except DecodeError Unit :=
  match ending with
  | some b => .error (.fault b.wanted)
  | none => .ok ()

/-- A key that has to be there as text. -/
def keyText (k : Except Fault String) : Except DecodeError String :=
  k.mapError .fault

mutual

/-- The value of a tree. -/
def Tree.value (p : Place) : Tree → Except DecodeError Value
  | .null => .ok .null
  | .bool b => .ok (.bool b)
  | .num n => (n.mapError .fault).map .num
  | .str s => (s.mapError .fault).map .str
  | .misspelt b | .broken b => .error (.fault b.wanted)
  | .arr items ending => do
    let inner ← p.enter
    let vs ← itemValues inner items
    checkEnding ending
    pure (.arr vs)
  | .obj members ending => do
    let inner ← p.enter
    let ms ← memberValues inner members
    checkEnding ending
    pure (.obj (Object.ofList ms))

def itemValues (p : Place) : List Tree → Except DecodeError (List Value)
  | [] => .ok []
  | t :: ts => do
    let v ← t.value p
    let vs ← itemValues p ts
    pure (v :: vs)

def memberValues (p : Place) :
    List (Except Fault String × Tree) → Except DecodeError (List (String × Value))
  | [] => .ok []
  | (k, t) :: ms => do
    let k ← keyText k
    let v ← t.value p
    let rest ← memberValues p ms
    pure ((k, v) :: rest)

end

namespace Decoder

def value : Decoder Value := fun p t => t.value p

def string : Decoder String
  | _, .str (.ok s) => .ok s
  | _, t => .error (mismatch "a string" t)

def boolean : Decoder Bool
  | _, .bool b => .ok b
  | _, t => .error (mismatch "a boolean" t)

/-- A natural number up to `max`, the greatest number of the kind named. -/
def natural (kind : String) (max : Nat) : Decoder Nat
  | _, .num (.ok (.int n)) =>
    if 0 ≤ n ∧ n ≤ max then .ok n.toNat else .error (.invalidValue (.num (.int n)) kind)
  | _, t => .error (mismatch kind t)

/-- A number as a double. -/
def double : Decoder Double
  | _, .num (.ok (.int n)) => .ok (Double.ofInt n)
  | _, .num (.ok (.float x)) => .ok x
  | _, t => .error (mismatch "f64" t)

/-- `null` for nothing. -/
def optional (d : Decoder α) : Decoder (Option α)
  | _, .null => .ok none
  | p, t => (d p t).map some

/-- The items one after the other. -/
def items (d : Decoder α) (p : Place) (ts : List Tree) : Except DecodeError (List α) :=
  ts.mapM (d p)

def list (d : Decoder α) : Decoder (List α)
  | p, .arr ts ending => do
    let inner ← p.enter
    let xs ← items d inner ts
    checkEnding ending
    pure xs
  | _, t => .error (mismatch "a sequence" t)

/-- The members one after the other, in the order of the text. -/
def members (d : Decoder α) : Decoder (List (String × α))
  | p, .obj ms ending => do
    let inner ← p.enter
    let xs ← ms.mapM fun (k, t) => do
      let k ← keyText k
      let x ← d inner t
      pure (k, x)
    checkEnding ending
    pure xs
  | _, t => .error (mismatch "a map" t)

def object : Decoder Object := fun p t => (members value p t).map Object.ofList

/-- Reads the value first and sets it aside. -/
def setAside (f : Value → Except DecodeError α) : Decoder α := fun p t => do
  f (← t.value p)

/-- Nothing: `null`, and an empty object that was set aside. -/
def unit : Decoder Unit
  | _, .null => .ok ()
  | p, .obj [] none =>
    if p.origin = .setAside then .ok () else .error (.invalidType .map "unit")
  | _, t => .error (mismatch "unit" t)

/-- One of a few names, `other` standing for every name that is not among them. -/
def variantName (known : List (String × α)) (other : Option α) (name : String) :
    Except DecodeError α :=
  match known.lookup name, other with
  | some a, _ => .ok a
  | none, some a => .ok a
  | none, none => .error (.unknownVariant name (known.map (·.1)))

/-- A name given as an object with that single member, whose value must be nothing. -/
def variantMember (known : List (String × α)) (other : Option α) (p : Place) :
    List (Except Fault String × Tree) → Option Break → Except DecodeError α
  | [(k, t)], ending => do
    let a ← variantName known other (← keyText k)
    unit p t
    match ending with
    | none => pure a
    | some b =>
      .error (.fault (if b.wanted = .endInObject then .endInObject else .expectedValue))
  | [], ending =>
    match p.origin, ending with
    | .text, none => .error (.fault .expectedValue)
    | .text, some b => .error (.fault b.wanted)
    | _, _ => .error (.invalidValue .map "map with a single key")
  | (k, t) :: _, _ =>
    if p.origin = .text then do
      let _ ← variantName known other (← keyText k)
      unit p t
      .error (.fault .expectedValue)
    else .error (.invalidValue .map "map with a single key")

/-- One of a few names. -/
def variant (known : List (String × α)) (other : Option α) : Decoder α
  | _, .str (.ok s) => variantName known other s
  | _, .str (.error f) => .error (.fault f)
  | _, .broken b => .error (.fault b.wanted)
  | p, .obj ms ending => do
    let inner ← p.enter
    variantMember known other inner ms ending
  | p, t =>
    if p.origin = .text then .error (.fault .expectedValue)
    else .error (mismatch "string or map" t)

/-- Decodes a value. -/
def ofValue (d : Decoder α) (v : Value) : Except DecodeError α := d ⟨.value, 0⟩ v.toTree

/-- Decodes a value that was set aside. -/
def ofSetAside (d : Decoder α) (v : Value) : Except DecodeError α := d ⟨.setAside, 0⟩ v.toTree

/-- Decodes a whole text, behind which nothing else may stand. -/
def ofDocument (d : Decoder α) (doc : Document) : Except DecodeError α := do
  let a ← d ⟨.text, 0⟩ doc.tree
  if doc.trailing then throw (.fault .trailingCharacters)
  pure a

def ofText (d : Decoder α) (text : String) : Except DecodeError α :=
  ofDocument d (.read text)

end Decoder

end Flowgraph.Json
