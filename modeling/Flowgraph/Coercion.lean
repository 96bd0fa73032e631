import Flowgraph.Catalog
import Flowgraph.Text.Lowercase
import Flowgraph.Text.Split
import Flowgraph.Traced

/-! Bringing a value into the form of a declared type. -/

namespace Flowgraph

open Json

/-- A value that has no form in the type. -/
structure CoercionError where
  expected : String
  found : Value
  deriving DecidableEq

def CoercionError.message (e : CoercionError) : String :=
  "Cannot coerce " ++ e.found.compact ++ " to " ++ e.expected

namespace Coercion

/-- A number as a double. -/
def numberToDouble : Number → Double
  | .int n => Double.ofInt n
  | .float x => x

/-- A number, a numeral as text, or a flag, as a finite double. -/
def toDouble? (v : Value) : Option Double :=
  let x? := match v with
    | .num n => some (numberToDouble n)
    | .str s => (Numeral.double (Text.trimChars s.toList)).toOption
    | .bool b => some (Double.ofInt (if b then 1 else 0))
    | .null | .arr _ | .obj _ => none
  x?.filter (·.isFinite)

/-- The whole part of a double, if 64 bits hold it. The double next above them is taken back to the
    greatest whole number that they hold. -/
def wholePart? (x : Double) : Option Int :=
  let n := x.truncate
  if x.isFinite && decide (int64Min ≤ n) && decide (n ≤ int64Max + 1) then some (min n int64Max)
  else none

/-- A number, a numeral as text, or a flag, as a whole number of 64 bits. A whole number beyond them is
    looked at as a double. -/
def toInteger? (v : Value) : Option Int :=
  match v with
  | .num (.int n) =>
    if int64Min ≤ n ∧ n ≤ int64Max then some n else wholePart? (Double.ofInt n)
  | .num (.float x) => wholePart? x
  | .str s => Numeral.int64? (Text.trimChars s.toList)
  | .bool b => some (if b then 1 else 0)
  | .null | .arr _ | .obj _ => none

/-- The words that mean yes. -/
def trueWords : List String := ["true", "1", "yes", "on"]

/-- What counts as true. -/
def truthy : Value → Bool
  | .bool b => b
  | .str s => trueWords.contains (Text.lowercase (Text.trim s))
  | .num n => !(numberToDouble n).isZero
  | .null => false
  | .arr items => !items.isEmpty
  | .obj members => !members.isEmpty

/-- The parts of a text between commas, without blanks around them and without empty ones. -/
def commaParts (s : String) : List String :=
  (((Text.splitChars ',' s.toList).map Text.trimChars).filter (!·.isEmpty)).map String.ofList

/-- The value in the form of a type. Untyped values, strings and objects are left as they are, and so
    is a list that is no text; a flag can be made of everything. -/
def coerce (v : Value) (type : ParamType) : Except CoercionError Value :=
  match type with
  | .number => match toDouble? v with
    | some x => .ok (.num (.float x))
    | none => .error ⟨"number", v⟩
  | .integer => match toInteger? v with
    | some n => .ok (.num (.int n))
    | none => .error ⟨"integer", v⟩
  | .boolean => .ok (.bool (truthy v))
  | .array => .ok (match v with
    | .str s => .arr ((commaParts s).map .str)
    | v => v)
  | .string | .object | .any => .ok v

/-- A parameter in the form of its type; one that has none is kept, with a warning. -/
def coerceParam (v : Value) (spec : ParamSpec) (path : String) : Traced Value :=
  match coerce v spec.type with
  | .ok w => pure w
  | .error e => do
    Traced.warning .paramCoercionFailed path e.message (some "The original value was kept")
    pure v

/-- A parameter that may not be declared. -/
def coerceDeclared (v : Value) (spec? : Option ParamSpec) (path : String) : Traced Value :=
  match spec? with
  | some spec => coerceParam v spec path
  | none => pure v

/-- Adds the defaults of the declared parameters that are not there. -/
def withDefaults (spec : Table ParamSpec) (params : Object) : Object :=
  spec.foldl (fun params (name, p) =>
    match p.default with
    | some d => if Object.has params name then params else Object.put name d params
    | none => params) params

/-- Every declared parameter in the form of its type, the others as they are. -/
def coerceParams (params : Object) (spec : Table ParamSpec) (path : String) : Traced Object :=
  params.mapM fun (name, v) => do
    let w ← coerceDeclared v (Table.entry? spec name) (path ++ "." ++ name)
    pure (name, w)

end Coercion

end Flowgraph
