import Flowgraph.Number.Decimal

/-! Numerals written by hand: whole numbers within a bound, and doubles. Digits are the ten ASCII ones,
    a sign may stand in front, and nothing else may surround them. -/

namespace Flowgraph.Numeral

/-- Why a text is not a numeral of the wanted kind. -/
inductive Flaw where
  | empty
  | invalidDigit
  | tooLarge
  | emptyFloat
  | invalidFloat
  deriving DecidableEq, Repr

def Flaw.message : Flaw → String
  | .empty => "cannot parse integer from empty string"
  | .invalidDigit => "invalid digit found in string"
  | .tooLarge => "number too large to fit in target type"
  | .emptyFloat => "cannot parse float from empty string"
  | .invalidFloat => "invalid float literal"

def isDigit (c : Char) : Bool := '0' ≤ c && c ≤ '9'

def digitValue (c : Char) : Nat := c.toNat - '0'.toNat

/-- Reads digits after the number `n` already read, stopping at the first character that is no digit
    or that takes the number beyond `max`. -/
def digitsFrom (max : Nat) (n : Nat) : List Char → Except Flaw Nat
  | [] => .ok n
  | c :: cs =>
    if !isDigit c then .error .invalidDigit
    else if max < n * 10 + digitValue c then .error .tooLarge
    else digitsFrom max (n * 10 + digitValue c) cs

/-- One digit at least, and all digits, within `max`. -/
def digits (max : Nat) : List Char → Except Flaw Nat
  | [] => .error .invalidDigit
  | cs => digitsFrom max 0 cs

/-- A natural number up to `max`; a plus sign may stand in front. -/
def natural (max : Nat) : List Char → Except Flaw Nat
  | [] => .error .empty
  | '+' :: cs => digits max cs
  | cs => digits max cs

/-- A whole number of 64 bits; a sign may stand in front. -/
def int64? : List Char → Option Int
  | '-' :: cs => ((digits int64Min.natAbs cs).toOption).map fun n => -(n : Int)
  | '+' :: cs => ((digits int64Max.natAbs cs).toOption).map fun n => (n : Int)
  | cs => ((digits int64Max.natAbs cs).toOption).map fun n => (n : Int)

/-- The number that a row of digits stands for, after the number `n`. -/
def valueFrom (n : Nat) (cs : List Char) : Nat :=
  cs.foldl (fun n c => n * 10 + digitValue c) n

/-- An exponent part: nothing, or the mark, a sign perhaps, and digits to the end. -/
def exponent? : List Char → Option Int
  | [] => some 0
  | m :: cs =>
    if m ≠ 'e' ∧ m ≠ 'E' then none
    else
      let (negative, ds) := match cs with
        | '-' :: ds => (true, ds)
        | '+' :: ds => (false, ds)
        | ds => (false, ds)
      if ds.isEmpty || !ds.all isDigit then none
      else
        let n : Int := valueFrom 0 ds
        some (if negative then -n else n)

/-- Digits with a point among, before or behind them, then an exponent part. -/
def unsignedDecimal? (negative : Bool) (cs : List Char) : Option Decimal :=
  let whole := cs.takeWhile isDigit
  let rest := cs.dropWhile isDigit
  let (part, tail) := match rest with
    | '.' :: cs => (cs.takeWhile isDigit, cs.dropWhile isDigit)
    | _ => ([], rest)
  if whole.isEmpty && part.isEmpty then none
  else (exponent? tail).map fun e =>
    ⟨negative, valueFrom (valueFrom 0 whole) part, e - part.length⟩

/-- The words for the numbers that have no digits, in any case. -/
def wordValue? (negative : Bool) (cs : List Char) : Option Double :=
  let w := String.ofList (cs.map Char.toLower)
  if w = "inf" ∨ w = "infinity" then some (Double.infinity negative)
  else if w = "nan" then some Double.nan
  else none

/-- A double: a sign perhaps, then a word or a decimal numeral, rounded to the nearest. -/
def double (cs : List Char) : Except Flaw Double :=
  if cs.isEmpty then .error .emptyFloat
  else
    let (negative, body) := match cs with
      | '-' :: cs => (true, cs)
      | '+' :: cs => (false, cs)
      | cs => (false, cs)
    match wordValue? negative body with
    | some x => .ok x
    | none => match unsignedDecimal? negative body with
      | some d => .ok d.toDouble
      | none => .error .invalidFloat

end Flowgraph.Numeral
