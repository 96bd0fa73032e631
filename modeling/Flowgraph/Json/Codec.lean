import Flowgraph.Json.Decode

/-! Codecs: how a datum is written as JSON and read back, each described once.

    A record is described field by field, in the order it is written. It is read from an object, where
    the fields may come in any order, or from a list, where they stand in the order of the description.
    Of several things wrong with a record the one that comes first in the document is reported; a field
    that is absent is only noticed at its end. -/

namespace Flowgraph.Json

/-- Writes and reads a datum. -/
structure Codec (α : Type) where
  encode : α → Value
  decode : Decoder α

/-- The canonical value of a datum. -/
def Codec.toValue (c : Codec α) (a : α) : Value := (c.encode a).canonical

namespace Codec

def value : Codec Value := ⟨id, .value⟩

def string : Codec String := ⟨.str, .string⟩

def boolean : Codec Bool := ⟨.bool, .boolean⟩

def double : Codec Double := ⟨.float, .double⟩

def uint32 : Codec UInt32 where
  encode n := .int n.toNat
  decode p t := (Decoder.natural "u32" uint32Max p t).map UInt32.ofNat

def uint64 : Codec UInt64 where
  encode n := .int n.toNat
  decode p t := (Decoder.natural "u64" uint64Max p t).map UInt64.ofNat

def list (c : Codec α) : Codec (List α) where
  encode xs := .arr (xs.map c.encode)
  decode := .list c.decode

def object : Codec Object := ⟨.obj, .object⟩

/-- One of a few names. -/
def variant (known : List (String × α)) (other : Option α) (name : α → String) : Codec α where
  encode a := .str (name a)
  decode := .variant known other

/-! ### Numbers that may be written as text -/

/-- A number of the wanted kind, or its numeral as text with blanks around. -/
def lenientNumber (number? : Number → Option α) (parse : List Char → Except Numeral.Flaw α) :
    Decoder α := .setAside fun v =>
  let refused : DecodeError := .noVariant "NumberOrText"
  match v with
  | .num n => match number? n with
    | some a => .ok a
    | none => .error refused
  | .str s => (parse (Text.trimChars s.toList)).mapError (.notANumber s)
  | _ => .error refused

/-- A whole number between zero and `max`. -/
def naturalNumber? (max : Nat) : Number → Option Nat
  | .int n => if 0 ≤ n ∧ n ≤ max then some n.toNat else none
  | .float _ => none

def lenientUInt32 : Codec UInt32 where
  encode n := .int n.toNat
  decode := lenientNumber (fun n => (naturalNumber? uint32Max n).map UInt32.ofNat)
    fun cs => (Numeral.natural uint32Max cs).map UInt32.ofNat

def lenientUInt64 : Codec UInt64 where
  encode n := .int n.toNat
  decode := lenientNumber (fun n => (naturalNumber? uint64Max n).map UInt64.ofNat)
    fun cs => (Numeral.natural uint64Max cs).map UInt64.ofNat

def lenientDouble : Codec Double where
  encode := .float
  decode := lenientNumber
    (fun | .int n => some (Double.ofInt n) | .float x => some x) Numeral.double

end Codec

/-! ### Tables -/

/-- Keys with their data, in the order in which the keys first appeared. -/
abbrev Table (α : Type) := List (String × α)

namespace Table

/-- Sets the datum of a key: in its place if the key is there, else behind all others. -/
def set (key : String) (a : α) : Table α → Table α
  | [] => [(key, a)]
  | (k, b) :: rest => if key = k then (key, a) :: rest else (k, b) :: set key a rest

def ofList (entries : List (String × α)) : Table α :=
  entries.foldl (fun t e => set e.1 e.2 t) []

/-- The datum of a key. -/
def entry? (t : Table α) (key : String) : Option α := List.lookup key t

end Table

/-- An object whose order counts. -/
def Codec.table (c : Codec α) : Codec (Table α) where
  encode t := .obj (t.map fun e => (e.1, c.encode e.2))
  decode p t := (Decoder.members c.decode p t).map Table.ofList

/-! ### Records -/

/-- What the fields of a record are read from. -/
inductive Shape where
  | named (members : List (Except Fault String × Tree))
  | listed (items : List Tree) (ending : Option Break)

/-- A record about to be read: what it is, the keys it knows, how many fields it has, and where its
    fields are. -/
structure Scope where
  title : String
  known : List String
  size : Nat
  place : Place
  shape : Shape

/-- An error and the moment at which it comes up: at a place of the document, at its end where the
    fields without a value are told, or after that. -/
structure Mishap where
  phase : Nat
  index : Nat
  error : DecodeError

def Mishap.atPlace (i : Nat) (e : DecodeError) : Mishap := ⟨0, i, e⟩
def Mishap.atEnd (i : Nat) (e : DecodeError) : Mishap := ⟨1, i, e⟩
def Mishap.afterwards (e : DecodeError) : Mishap := ⟨2, 0, e⟩

/-- Comes up earlier. -/
def Mishap.before (a b : Mishap) : Bool :=
  a.phase < b.phase || (a.phase == b.phase && a.index < b.index)

/-- Both results, or the mishap that comes up first. -/
def bothOrFirst (a : Except Mishap α) (b : Except Mishap β) : Except Mishap (α × β) :=
  match a, b with
  | .ok x, .ok y => .ok (x, y)
  | .error e, .ok _ => .error e
  | .ok _, .error f => .error f
  | .error e, .error f => .error (if f.before e then f else e)

/-- A record, or a part of one, that is written from a `σ` and read as an `α`: the keys of each field, whether
    members of other keys belong to it, and the two directions. Reading is told at which field of the
    record the part starts. -/
structure Record (σ α : Type) where
  names : List (List String)
  opened : Bool
  write : σ → List (String × Value)
  read : Scope → Nat → Except Mishap α

namespace Record

def map (f : α → β) (r : Record σ α) : Record σ β where
  names := r.names
  opened := r.opened
  write := r.write
  read scope i := (r.read scope i).map f

/-- One part after the other. -/
def andThen (r : Record σ (α → β)) (s : Record σ α) : Record σ β where
  names := r.names ++ s.names
  opened := r.opened || s.opened
  write x := r.write x ++ s.write x
  read scope i :=
    (bothOrFirst (r.read scope i) (s.read scope (i + r.names.length))).map fun fx => fx.1 fx.2

instance : Functor (Record σ) := { map := map }
instance : Seq (Record σ) := { seq := fun r s => r.andThen (s ()) }

/-- The members whose key is one of the names, with their positions counted from `i`. -/
def occurrences (names : List String) (i : Nat) :
    List (Except Fault String × Tree) → List (Nat × Tree)
  | [] => []
  | (.ok k, t) :: ms =>
    if k ∈ names then (i, t) :: occurrences names (i + 1) ms else occurrences names (i + 1) ms
  | (.error _, _) :: ms => occurrences names (i + 1) ms

/-- Reads the field of the given names; `absent` is what stands for one that is not there. -/
def readField (name : String) (aliases : List String) (d : Decoder α) (absent : Option α)
    (scope : Scope) (i : Nat) : Except Mishap α :=
  match scope.shape with
  | .named members =>
    match occurrences (name :: aliases) 0 members with
    | [] => match absent with
      | some a => .ok a
      | none => .error (.atEnd i (.missingField name))
    | (k, t) :: more => match d scope.place t with
      | .error e => .error (.atPlace k e)
      | .ok a => match more with
        | [] => .ok a
        | (k', _) :: _ => .error (.atPlace k' (.duplicateField name))
  | .listed items ending =>
    match items[i]? with
    | some t => (d scope.place t).mapError (.atPlace i)
    | none => match ending, absent with
      | some b, _ => .error (.atPlace i (.fault b.wanted))
      | none, some a => .ok a
      | none, none =>
        let count := if scope.size = 1 then "1 element" else s!"{scope.size} elements"
        .error (.atPlace i (.invalidLength i (scope.title ++ " with " ++ count)))

/-- A field that has to be there. -/
def field (name : String) (get : σ → α) (c : Codec α) : Record σ α where
  names := [[name]]
  opened := false
  write s := [(name, c.encode (get s))]
  read := readField name [] c.decode none

/-- A field with a datum for when it is absent, also known by other names; always written. -/
def aliased (name : String) (aliases : List String) (get : σ → α) (c : Codec α) (absent : α) :
    Record σ α where
  names := [name :: aliases]
  opened := false
  write s := [(name, c.encode (get s))]
  read := readField name aliases c.decode (some absent)

/-- A field with a datum for when it is absent; always written. -/
def defaulted (name : String) (get : σ → α) (c : Codec α) (absent : α) : Record σ α :=
  aliased name [] get c absent

/-- A field that may be absent or `null`; written if there is something to write. -/
def maybe (name : String) (get : σ → Option α) (c : Codec α) : Record σ (Option α) where
  names := [[name]]
  opened := false
  write s := match get s with
    | some a => [(name, c.encode a)]
    | none => []
  read := readField name [] (.optional c.decode) (some none)

/-- A list that may be absent; written unless it is empty. -/
def unlessEmpty (name : String) (get : σ → List α) (c : Codec α) : Record σ (List α) where
  names := [[name]]
  opened := false
  write s := if (get s).isEmpty then [] else [(name, (Codec.list c).encode (get s))]
  read := readField name [] (.list c.decode) (some [])

/-- The values of the members that no field knows, with their positions counted from `i`. -/
def strayValues (p : Place) (known : List String) (i : Nat) :
    List (Except Fault String × Tree) → Except Mishap (List (String × Value))
  | [] => .ok []
  | (.ok k, t) :: ms =>
    if k ∈ known then strayValues p known (i + 1) ms
    else do
      let v ← (t.value p).mapError (.atPlace i)
      let rest ← strayValues p known (i + 1) ms
      pure ((k, v) :: rest)
  | (.error _, _) :: ms => strayValues p known (i + 1) ms

/-- A part made of the members that no field knows, all taken together. -/
def gathered (get : σ → α) (write : α → Object) (read : Object → Except DecodeError α) :
    Record σ α where
  names := []
  opened := true
  write s := write (get s)
  read scope _ := match scope.shape with
    | .named members => do
      let ms ← strayValues scope.place scope.known 0 members
      (read (Object.ofList ms)).mapError .afterwards
    | .listed _ _ => (read []).mapError .afterwards

/-- The members that no field knows, kept as they are. -/
def rest (get : σ → Object) : Record σ Object := gathered get id .ok

/-- The faults of an object outside the fields of a record: of its keys, of the members passed over
    and of its ending. -/
def strayFaults (opened : Bool) (known : List String) (ending : Option Break) (i : Nat) :
    List (Except Fault String × Tree) → Except Mishap Unit
  | [] => (checkEnding ending).mapError (.atPlace i)
  | (.error f, _) :: _ => .error (.atPlace i (.fault f))
  | (.ok k, t) :: ms =>
    let passed := if opened || k ∈ known then none else t.passingFault?
    match passed with
    | some f => .error (.atPlace i (.fault f))
    | none => strayFaults opened known ending (i + 1) ms

/-- The error of a list that goes on behind the last field, or breaks off there. -/
def overlong? (origin : Origin) (size : Nat) (items : List Tree) (ending : Option Break) :
    Option DecodeError :=
  if size < items.length then
    some (match origin with
      | .text => .fault .trailingCharacters
      | .value => .invalidLength items.length "fewer elements in array"
      | .setAside =>
        let count := if size = 1 then "1 element" else s!"{size} elements"
        .invalidLength items.length (count ++ " in sequence"))
  else ending.map fun b =>
    .fault (if b.wanted = .endInList ∨ b.wanted = .trailingComma then b.wanted
      else .trailingCharacters)

/-- Reads a record. One with members of other keys is read from an object only. -/
def decode (title : String) (r : Record σ α) : Decoder α
  | p, .obj members ending => do
    let inner ← p.enter
    let known := r.names.flatten
    let scope : Scope := ⟨title, known, r.names.length, inner, .named members⟩
    match bothOrFirst (strayFaults r.opened known ending 0 members) (r.read scope 0) with
    | .ok (_, a) => pure a
    | .error m => throw m.error
  | p, .arr items ending =>
    if r.opened then .error (mismatch title (.arr items ending))
    else do
      let inner ← p.enter
      let scope : Scope :=
        ⟨title, r.names.flatten, r.names.length, inner, .listed items ending⟩
      let a ← (r.read scope 0).mapError (·.error)
      match overlong? p.origin r.names.length items ending with
      | some e => throw e
      | none => pure a
  | _, t => .error (mismatch title t)

/-- The codec of a record. -/
def codec (name : String) (r : Record α α) : Codec α where
  encode a := .obj (r.write a)
  decode := r.decode ("struct " ++ name)

end Record

end Flowgraph.Json
