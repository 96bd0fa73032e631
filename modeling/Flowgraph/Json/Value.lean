import Flowgraph.Number.Decimal

/-! JSON values. An object is the list of its members; in a *canonical* value every object lists them in
    increasing key order without repeats, and `Object.put` keeps it so. -/

namespace Flowgraph.Json

/-- A number is whole or a double; `1` and `1.0` are different numbers. -/
inductive Number where
  | int (n : Int)
  | float (x : Double)
  deriving DecidableEq, Repr

inductive Value where
  | null
  | bool (b : Bool)
  | num (n : Number)
  | str (s : String)
  | arr (items : List Value)
  | obj (members : List (String × Value))
  deriving Repr, Inhabited

/-- The members of an object. -/
abbrev Object := List (String × Value)

namespace Object

/-- The value under a key. -/
def member? (o : Object) (key : String) : Option Value := List.lookup key o

/-- Whether the key is there. -/
def has (o : Object) (key : String) : Bool := (member? o key).isSome

/-- Puts a member at its place in key order, in place of the one that had its key. -/
def put (key : String) (v : Value) : Object → Object
  | [] => [(key, v)]
  | (k, w) :: rest =>
    if key = k then (key, v) :: rest
    else if key < k then (key, v) :: (k, w) :: rest
    else (k, w) :: put key v rest

/-- The object without a key. -/
def without (key : String) (o : Object) : Object := o.filter (·.1 != key)

/-- The members one after the other, a later one in place of an earlier one of its key. -/
def ofList (members : List (String × Value)) : Object :=
  members.foldl (fun o m => put m.1 m.2 o) []

/-- Applies a function to each value and keeps the keys. -/
def mapValues (f : Value → Value) (o : Object) : Object := o.map fun m => (m.1, f m.2)

/-- Keys increase strictly. -/
def Sorted (o : Object) : Prop := (o.map Prod.fst).Pairwise (· < ·)

end Object

namespace Value

/-- A whole number. -/
def int (n : Int) : Value := .num (.int n)

/-- A double, where there is a numeral for it; infinities and NaN have none and become `null`. -/
def float (x : Double) : Value := if x.isFinite then .num (.float x) else .null

def isNull : Value → Bool
  | .null => true
  | _ => false

/-- The value under a key of an object; other values have no members. -/
def member? (v : Value) (key : String) : Option Value :=
  match v with
  | .obj members => Object.member? members key
  | _ => none

/-- Replaces the value under a key, if the key is there. -/
def updateMember (key : String) (f : Value → Value) (v : Value) : Value :=
  match v with
  | .obj members => .obj (members.map fun m => if m.1 = key then (m.1, f m.2) else m)
  | v => v

/-- The value without a member; other values have none to lose. -/
def withoutMember (key : String) (v : Value) : Value :=
  match v with
  | .obj members => .obj (Object.without key members)
  | v => v

mutual

/-- Every object in key order. -/
def canonical : Value → Value
  | .arr items => .arr (canonicalItems items)
  | .obj members => .obj (Object.ofList (canonicalMembers members))
  | .null => .null
  | .bool b => .bool b
  | .num n => .num n
  | .str s => .str s

def canonicalItems : List Value → List Value
  | [] => []
  | v :: vs => v.canonical :: canonicalItems vs

def canonicalMembers : List (String × Value) → List (String × Value)
  | [] => []
  | (k, v) :: ms => (k, v.canonical) :: canonicalMembers ms

end

mutual

/-- Values are the same if they are of one kind and hold the same. -/
def decideEq : (v w : Value) → Decidable (v = w)
  | .null, w => match w with
    | .null => isTrue rfl
    | .bool _ | .num _ | .str _ | .arr _ | .obj _ => isFalse nofun
  | .bool a, w => match w with
    | .bool b => decidable_of_iff (a = b) (by simp)
    | .null | .num _ | .str _ | .arr _ | .obj _ => isFalse nofun
  | .num a, w => match w with
    | .num b => decidable_of_iff (a = b) (by simp)
    | .null | .bool _ | .str _ | .arr _ | .obj _ => isFalse nofun
  | .str a, w => match w with
    | .str b => decidable_of_iff (a = b) (by simp)
    | .null | .bool _ | .num _ | .arr _ | .obj _ => isFalse nofun
  | .arr a, w => match w with
    | .arr b => @decidable_of_iff _ (a = b) (by simp) (decideEqItems a b)
    | .null | .bool _ | .num _ | .str _ | .obj _ => isFalse nofun
  | .obj a, w => match w with
    | .obj b => @decidable_of_iff _ (a = b) (by simp) (decideEqMembers a b)
    | .null | .bool _ | .num _ | .str _ | .arr _ => isFalse nofun

def decideEqItems : (vs ws : List Value) → Decidable (vs = ws)
  | [], [] => isTrue rfl
  | [], _ :: _ => isFalse nofun
  | _ :: _, [] => isFalse nofun
  | v :: vs, w :: ws =>
    have := decideEq v w
    have := decideEqItems vs ws
    decidable_of_iff (v = w ∧ vs = ws) (by simp)

def decideEqMembers : (ms ns : List (String × Value)) → Decidable (ms = ns)
  | [], [] => isTrue rfl
  | [], _ :: _ => isFalse nofun
  | _ :: _, [] => isFalse nofun
  | (k, v) :: ms, (l, w) :: ns =>
    have := decideEq v w
    have := decideEqMembers ms ns
    decidable_of_iff (k = l ∧ v = w ∧ ms = ns) (by simp [and_assoc])

end

instance : DecidableEq Value := decideEq

end Value

end Flowgraph.Json
