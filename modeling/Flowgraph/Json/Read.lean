import Flowgraph.Json.Tree
import Flowgraph.Number.Numeral

/-! From text to tree. -/

namespace Flowgraph.Json

open Numeral (isDigit digitValue)

/-- The blanks that may stand between the parts of a JSON text. -/
def isSpace (c : Char) : Bool := c = ' ' || c = '\n' || c = '\t' || c = '\r'

def skipSpace (cs : List Char) : List Char := cs.dropWhile isSpace

/-- Reads the rest of a word such as `null`. -/
def readWord : (letters : List Char) → List Char → Except Fault (List Char)
  | [], cs => .ok cs
  | _ :: _, [] => .error .endInValue
  | l :: ls, c :: cs => if c = l then readWord ls cs else .error .expectedWord

/-! ### Numbers -/

/-- Appends digits to a significand for as long as it fits 64 bits, and counts them. -/
def appendDigits (significand : Nat) : List Char → Nat × Nat
  | [] => (significand, 0)
  | c :: cs =>
    let next := significand * 10 + digitValue c
    if next ≤ uint64Max then
      let (s, used) := appendDigits next cs
      (s, used + 1)
    else (significand, 0)

/-- The double nearest to a power of ten. -/
def powerOfTen (e : Nat) : Double := Decimal.toDouble ⟨false, 1, e⟩

/-- Divides by `10 ^ e`, in steps of `10 ^ 308` at most, each rounded. -/
def scaleDown (x : Double) (e : Nat) : Double :=
  if e ≤ 308 then x.div (powerOfTen e)
  else if x.isZero then x
  else scaleDown (x.div (powerOfTen 308)) (e - 308)
termination_by e

/-- A significand of at most 64 bits times a power of ten: the significand is rounded to a double first
    and the scaled number again. -/
def scaled (significand : Nat) (e : Int) : Except Fault Double :=
  let x := Double.ofInt significand
  match e with
  | .negSucc k => .ok (scaleDown x (k + 1))
  | .ofNat k =>
    if k ≤ 308 then
      let y := x.mul (powerOfTen k)
      if y.isFinite then .ok y else .error .numberOutOfRange
    else if x.isZero then .ok x
    else .error .numberOutOfRange

/-- The parts of a numeral: sign, digits before and after the point, exponent if there is one. -/
structure NumeralParts where
  negative : Bool
  whole : List Char
  part : List Char
  exponent : Option (Bool × List Char)

/-- The number of a numeral. Without point and exponent it is whole if 64 bits hold it, except that
    `-0` is the double with that sign. Digits beyond 64 bits count for their place only. -/
def NumeralParts.number (p : NumeralParts) : Except Fault Number :=
  let (s, used) := appendDigits 0 p.whole
  let beyond := p.whole.length - used
  let (s', used') := appendDigits s p.part
  let e : Int := (beyond : Int) - used'
  let signed (x : Double) : Number := .float (if p.negative then x.neg else x)
  match p.exponent with
  | some (down, ds) =>
    let n := Numeral.valueFrom 0 ds
    if twoTo 31 ≤ n then
      if s' ≠ 0 ∧ !down then .error .numberOutOfRange else .ok (signed (Double.make false 0))
    else (scaled s' (if down then e - n else e + n)).map signed
  | none =>
    if !p.part.isEmpty || beyond ≠ 0 then (scaled s' e).map signed
    else if !p.negative then .ok (.int s)
    else if s = 0 ∨ int64Min.natAbs < s then .ok (signed (Double.ofInt s))
    else .ok (.int (-s))

/-- The fault of a numeral that lacks a digit in front of `cs`. -/
def missingDigit (cs : List Char) : Break :=
  ⟨if cs.isEmpty then .endInValue else .invalidNumber, .invalidNumber⟩

/-- Reads an exponent, its mark passed. -/
def readExponent (cs : List Char) : Except Break ((Bool × List Char) × List Char) :=
  let (down, ds) := match cs with
    | '-' :: ds => (true, ds)
    | '+' :: ds => (false, ds)
    | ds => (false, ds)
  if (ds.takeWhile isDigit).isEmpty then .error (missingDigit ds)
  else .ok ((down, ds.takeWhile isDigit), ds.dropWhile isDigit)

/-- Reads the digits behind a point, if there is one. -/
def readPart : List Char → Except Break (List Char × List Char)
  | '.' :: ds =>
    if (ds.takeWhile isDigit).isEmpty then .error (missingDigit ds)
    else .ok (ds.takeWhile isDigit, ds.dropWhile isDigit)
  | cs => .ok ([], cs)

/-- Reads an exponent with its mark, if there is one. -/
def readPower : List Char → Except Break (Option (Bool × List Char) × List Char)
  | m :: ds =>
    if m = 'e' ∨ m = 'E' then (readExponent ds).map fun (e, rest) => (some e, rest)
    else .ok (none, m :: ds)
  | [] => .ok (none, [])

/-- Reads a numeral, its sign passed. -/
def readNumeral (negative : Bool) (cs : List Char) : Except Break (NumeralParts × List Char) :=
  let whole := cs.takeWhile isDigit
  if whole.isEmpty then .error (missingDigit cs)
  else if whole.head? = some '0' ∧ 1 < whole.length then .error (.both .invalidNumber)
  else do
    let (part, rest) ← readPart (cs.dropWhile isDigit)
    let (exponent, rest) ← readPower rest
    pure (⟨negative, whole, part, exponent⟩, rest)

/-! ### Strings -/

/-- The value of a hexadecimal digit. -/
def hexValue? (c : Char) : Option Nat :=
  if isDigit c then some (digitValue c)
  else if 'a' ≤ c ∧ c ≤ 'f' then some (c.toNat - 'a'.toNat + 10)
  else if 'A' ≤ c ∧ c ≤ 'F' then some (c.toNat - 'A'.toNat + 10)
  else none

/-- The 16-bit unit that four hexadecimal digits spell. -/
def hexUnit? (a b c d : Char) : Option Nat := do
  let a ← hexValue? a
  let b ← hexValue? b
  let c ← hexValue? c
  let d ← hexValue? d
  pure (((a * 16 + b) * 16 + c) * 16 + d)

/-- The character of a one-letter escape. -/
def shortEscape? (c : Char) : Option Char :=
  if c = '"' ∨ c = '\\' ∨ c = '/' then some c
  else if c = 'b' then some (Char.ofNat 8)
  else if c = 'f' then some (Char.ofNat 12)
  else if c = 'n' then some '\n'
  else if c = 'r' then some '\r'
  else if c = 't' then some '\t'
  else none

/-- How far a string has been read: the characters so far, the last first; the leading half of a
    surrogate pair whose other half must follow; and the first escape that has no character. -/
structure StringState where
  chars : List Char
  half : Option Nat
  flaw : Option Fault

namespace StringState

def start : StringState := ⟨[], none, none⟩

/-- Notes a flaw, unless there was one before. -/
def flawed (st : StringState) (f : Fault) : StringState :=
  { st with half := none, flaw := st.flaw <|> some f }

/-- Adds a character. -/
def push (st : StringState) (c : Char) : StringState :=
  match st.half with
  | none => { st with chars := c :: st.chars }
  | some _ => st.flawed .unfinishedSurrogate

/-- Adds a 16-bit unit: a character, or half a surrogate pair. -/
def pushUnit (st : StringState) (n : Nat) : StringState :=
  let trailing := 0xDC00 ≤ n ∧ n ≤ 0xDFFF
  match st.half with
  | some h =>
    if trailing then
      let c := Char.ofNat ((h - 0xD800) * 0x400 + (n - 0xDC00) + 0x10000)
      { st with chars := c :: st.chars, half := none }
    else st.flawed .loneSurrogate
  | none =>
    if trailing then st.flawed .loneSurrogate
    else if 0xD800 ≤ n ∧ n ≤ 0xDBFF then { st with half := some n }
    else { st with chars := Char.ofNat n :: st.chars }

/-- The string that was read. -/
def result (st : StringState) : Except Fault String :=
  match st.flaw, st.half with
  | some f, _ => .error f
  | none, some _ => .error .unfinishedSurrogate
  | none, none => .ok (String.ofList st.chars.reverse)

/-- The text breaks here. -/
def stop (st : StringState) (f : Fault) : Break := ⟨st.flaw.getD f, f⟩

end StringState

/-- Reads a string, its opening quote passed. -/
def readString (st : StringState) : List Char → Except Break (Except Fault String × List Char)
  | [] => .error (st.stop .endInString)
  | '"' :: cs => .ok (st.result, cs)
  | '\\' :: 'u' :: a :: b :: c :: d :: cs =>
    match hexUnit? a b c d with
    | some n => readString (st.pushUnit n) cs
    | none => .error (st.stop .invalidEscape)
  | '\\' :: 'u' :: cs =>
    let left := cs.foldl (fun n c => n + c.utf8Size) 0
    .error (st.stop (if left < 4 then .endInString else .invalidEscape))
  | '\\' :: e :: cs =>
    match shortEscape? e with
    | some c => readString (st.push c) cs
    | none =>
      let st := match st.half with
        | some _ => st.flawed .unfinishedSurrogate
        | none => st
      .error (st.stop .invalidEscape)
  | ['\\'] => .error (st.stop .endInString)
  | c :: cs =>
    if c.toNat < 32 then
      let st := match st.half with
        | some _ => st.flawed .unfinishedSurrogate
        | none => st
      .error (st.stop .controlCharacter)
    else readString (st.push c) cs

/-! ### Values -/

/-- A tree and the text behind it, if the tree is whole. -/
abbrev Reading := Tree × Option (List Char)

def Reading.word (t : Tree) (r : Except Fault (List Char)) : Reading :=
  match r with
  | .ok rest => (t, some rest)
  | .error f => (.misspelt (.both f), none)

def Reading.numeral (r : Except Break (NumeralParts × List Char)) : Reading :=
  match r with
  | .ok (p, rest) => (.num p.number, some rest)
  | .error b => (.misspelt b, none)

def Reading.string (r : Except Break (Except Fault String × List Char)) : Reading :=
  match r with
  | .ok (s, rest) => (.str s, some rest)
  | .error b => (.broken b, none)

/-- What stands in a list or an object up to its end, how it breaks off, and the text behind it. -/
structure Rest (α : Type) where
  found : List α
  ending : Option Break
  behind : Option (List Char)

/-- The members of an object. -/
abbrev Members := List (Except Fault String × Tree)

/-- The key and the text behind its colon; or the member or the break that ends the object here. -/
inductive KeyReading where
  | key (k : Except Fault String) (value : List Char)
  | last (member : Except Fault String × Tree)
  | stop (b : Break)

/-- Reads a key, its opening quote passed, and the colon. -/
def readKey (cs : List Char) : KeyReading :=
  match readString .start cs with
  | .error b => .stop b
  | .ok (k, rest) => match skipSpace rest with
    | ':' :: value => .key k value
    | [] => .last (k, .broken (.both .endInObject))
    | _ => .last (k, .broken (.both .expectedColon))

/-- What stands where a list goes on. -/
inductive ItemPlace where
  | item (cs : List Char)
  | done (behind : List Char)
  | stop (b : Break)

def itemPlace (first : Bool) (cs : List Char) : ItemPlace :=
  match skipSpace cs with
  | [] => .stop (.both .endInList)
  | ']' :: behind => .done behind
  | c :: rest =>
    if first then .item (c :: rest)
    else if c = ',' then
      match skipSpace rest with
      | [] => .stop (.both .endInValue)
      | ']' :: _ => .stop ⟨.trailingComma, .expectedValue⟩
      | rest => .item rest
    else .stop (.both .expectedListEnd)

/-- What stands where an object goes on; the text of a key without its opening quote. -/
def keyPlace (first : Bool) (cs : List Char) : ItemPlace :=
  match skipSpace cs with
  | [] => .stop (.both .endInObject)
  | '}' :: behind => .done behind
  | c :: rest =>
    if first then
      if c = '"' then .item rest else .stop (.both .keyNotString)
    else if c = ',' then
      match skipSpace rest with
      | '"' :: rest => .item rest
      | '}' :: _ => .stop ⟨.trailingComma, .keyNotString⟩
      | [] => .stop ⟨.endInValue, .endInObject⟩
      | _ => .stop (.both .keyNotString)
    else .stop (.both .expectedObjectEnd)

mutual

/-- Reads a value. Every second call passes a character, so fuel of twice the length of the text and two
    more is never used up. -/
def readValue : (fuel : Nat) → List Char → Reading
  | 0, _ => (.broken (.both .endInValue), none)
  | fuel + 1, cs =>
    match skipSpace cs with
    | [] => (.broken (.both .endInValue), none)
    | c :: rest =>
      if c = 'n' then .word .null (readWord ['u', 'l', 'l'] rest)
      else if c = 't' then .word (.bool true) (readWord ['r', 'u', 'e'] rest)
      else if c = 'f' then .word (.bool false) (readWord ['a', 'l', 's', 'e'] rest)
      else if c = '-' then .numeral (readNumeral true rest)
      else if isDigit c then .numeral (readNumeral false (c :: rest))
      else if c = '"' then .string (readString .start rest)
      else if c = '[' then
        let r := readItems fuel true rest
        (.arr r.found r.ending, r.behind)
      else if c = '{' then
        let r := readMembers fuel true rest
        (.obj r.found r.ending, r.behind)
      else (.broken (.both .expectedValue), none)

def readItems : (fuel : Nat) → (first : Bool) → List Char → Rest Tree
  | 0, _, _ => ⟨[], some (.both .endInList), none⟩
  | fuel + 1, first, cs =>
    match itemPlace first cs with
    | .stop b => ⟨[], some b, none⟩
    | .done behind => ⟨[], none, some behind⟩
    | .item cs => match readValue fuel cs with
      | (t, none) => ⟨[t], none, none⟩
      | (t, some rest) =>
        let r := readItems fuel false rest
        ⟨t :: r.found, r.ending, r.behind⟩

def readMembers : (fuel : Nat) → (first : Bool) → List Char → Rest (Except Fault String × Tree)
  | 0, _, _ => ⟨[], some (.both .endInObject), none⟩
  | fuel + 1, first, cs =>
    match keyPlace first cs with
    | .stop b => ⟨[], some b, none⟩
    | .done behind => ⟨[], none, some behind⟩
    | .item cs => match readKey cs with
      | .stop b => ⟨[], some b, none⟩
      | .last m => ⟨[m], none, none⟩
      | .key k value => match readValue fuel value with
        | (t, none) => ⟨[(k, t)], none, none⟩
        | (t, some rest) =>
          let r := readMembers fuel false rest
          ⟨(k, t) :: r.found, r.ending, r.behind⟩

end

/-- A whole text: its tree, and whether something stands behind it. -/
structure Document where
  tree : Tree
  trailing : Bool

/-- Reads a text. -/
def Document.read (text : String) : Document :=
  let cs := text.toList
  let (tree, behind) := readValue (2 * cs.length + 2) cs
  ⟨tree, match behind with
    | some rest => !(skipSpace rest).isEmpty
    | none => false⟩

end Flowgraph.Json
