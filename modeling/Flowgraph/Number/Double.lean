import Flowgraph.Number.Powers

/-! Binary64 numbers, held as their 64-bit words.

    A finite double is a whole number of units `2 ^ -1074`: `±significand * 2 ^ scale` of them. Every
    operation here works on those whole numbers and rounds once, to the nearest double, with a tie
    going to the even significand. -/

namespace Flowgraph

/-- A binary64 number: sign bit, 11-bit exponent field, 52-bit fraction. -/
structure Double where
  bits : UInt64
  deriving DecidableEq, Repr, Inhabited

namespace Double

/-- The word as a natural number. -/
def word (x : Double) : Nat := x.bits.toNat

/-- The sign bit; set on `-0.0` too. -/
def negative (x : Double) : Bool := decide (twoTo 63 ≤ x.word)

/-- The biased exponent. -/
def field (x : Double) : Nat := x.word / twoTo 52 % twoTo 11

/-- The fraction bits. -/
def fraction (x : Double) : Nat := x.word % twoTo 52

/-- Neither an infinity nor a NaN. -/
def isFinite (x : Double) : Bool := x.field != 2047

/-- The whole significand, with the hidden bit of a normal number. -/
def significand (x : Double) : Nat :=
  if x.field = 0 then x.fraction else x.fraction + twoTo 52

/-- How far the significand stands to the left of the unit place. -/
def scale (x : Double) : Nat := x.field - 1

/-- The magnitude of a finite double in units of `2 ^ -1074`. -/
def units (x : Double) : Nat := x.significand * twoTo x.scale

/-- Both zeros. -/
def isZero (x : Double) : Bool := x.units == 0

/-- The double with this sign and these 63 lower bits. -/
def make (negative : Bool) (magnitude : Nat) : Double :=
  ⟨UInt64.ofNat (magnitude + if negative then twoTo 63 else 0)⟩

/-- The lower bits of an infinity. -/
def infinityWord : Nat := 2047 * twoTo 52

def infinity (negative : Bool) : Double := make negative infinityWord

def nan : Double := make false (infinityWord + twoTo 51)

/-- The whole number nearest to `a / b`, a tie going to the even one. -/
def divideToEven (a b : Nat) : Nat :=
  let q := a / b
  let r := a % b
  if 2 * r < b then q else if b < 2 * r then q + 1 else q + q % 2

/-- The double nearest to `±num / den`. With `k` the number of places by which the quotient overflows
    53 bits, the rounded significand sits in the word on top of `k` in the exponent field, and a carry
    out of the significand moves into the exponent by itself. -/
def ofRatio (negative : Bool) (num den : Nat) : Double :=
  let k := Nat.log2 (num * twoTo 1074 / den) - 52
  let word := k * twoTo 52 + divideToEven (num * twoTo 1074) (den * twoTo k)
  make negative (min word infinityWord)

/-- The double nearest to a whole number. -/
def ofInt (n : Int) : Double := ofRatio (n < 0) n.natAbs 1

/-- The same number with the other sign. -/
def neg (x : Double) : Double := ⟨x.bits ^^^ 0x8000000000000000⟩

/-- The product of two finite doubles, rounded. -/
def mul (x y : Double) : Double :=
  ofRatio (x.negative != y.negative) (x.units * y.units) (twoTo 2148)

/-- The quotient of two finite doubles, the second not zero, rounded. -/
def div (x y : Double) : Double :=
  ofRatio (x.negative != y.negative) x.units y.units

/-- The whole part of a finite double. -/
def truncate (x : Double) : Int :=
  let n : Nat := x.units / twoTo 1074
  if x.negative then -(n : Int) else n

end Double

end Flowgraph
