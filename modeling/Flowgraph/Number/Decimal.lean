import Flowgraph.Number.Double

/-! Decimal numerals and doubles: the double nearest to a numeral, the fewest digits that read back as
    a double, and the text made of them. -/

namespace Flowgraph

/-- The decimal numeral `±digits * 10 ^ exponent`. -/
structure Decimal where
  negative : Bool
  digits : Nat
  exponent : Int
  deriving DecidableEq, Repr

namespace Decimal

/-- How many decimal digits a natural number has. -/
def digitCount (n : Nat) : Nat := (Nat.toDigits 10 n).length

/-- The double nearest to the numeral. A numeral of more than 310 places before the point is beyond
    every double, one that starts more than 330 places after it is below half the least one; only the
    numerals between are computed. -/
def toDouble (d : Decimal) : Double :=
  let top : Int := digitCount d.digits + d.exponent
  if d.digits = 0 then Double.make d.negative 0
  else if 310 < top then Double.infinity d.negative
  else if top < -330 then Double.make d.negative 0
  else match d.exponent with
    | .ofNat e => Double.ofRatio d.negative (d.digits * tenTo e) 1
    | .negSucc e => Double.ofRatio d.negative d.digits (tenTo (e + 1))

end Decimal

namespace Double

/-- The reals that round to a double, in quarters of its unit of least place, over the common
    denominator `2 ^ 1076`. The lower half is narrower under a power of two. -/
structure RoundingInterval where
  low : Nat
  value : Nat
  high : Nat
  closed : Bool

def roundingInterval (x : Double) : RoundingInterval :=
  let m := x.significand
  let unit := twoTo x.scale
  { low := 4 * m * unit - (if m = twoTo 52 ∧ 0 < x.scale then unit else 2 * unit)
    value := 4 * m * unit
    high := 4 * m * unit + 2 * unit
    closed := m % 2 == 0 }

/-- The point `c * 10 ^ p`, in the same denominator as an interval end `a`, the two brought to whole
    numbers together. -/
def onGrid (c : Nat) (p : Int) (a : Nat) : Nat × Nat :=
  match p with
  | .ofNat e => (c * tenTo e * twoTo 1076, a)
  | .negSucc e => (c * twoTo 1076, a * tenTo (e + 1))

/-- Whether `c * 10 ^ p` rounds to the double of the interval. -/
def RoundingInterval.holds (i : RoundingInterval) (c : Nat) (p : Int) : Bool :=
  let (x, low) := onGrid c p i.low
  let (y, high) := onGrid c p i.high
  if i.closed then low ≤ x && y ≤ high else low < x && y < high

/-- The multiple of `10 ^ p` just below the value, and its distance to the value and the step of the
    grid in the same denominator. -/
def RoundingInterval.below (i : RoundingInterval) (p : Int) : Nat × Nat × Nat :=
  match p with
  | .ofNat e =>
    let step := tenTo e * twoTo 1076
    (i.value / step, i.value % step, step)
  | .negSucc e =>
    let step := twoTo 1076
    (i.value * tenTo (e + 1) / step, i.value * tenTo (e + 1) % step, step)

/-- The point of the grid of `10 ^ p` that rounds to the double, if there is one: of the two neighbours
    of the value the nearer, a tie going to the even one. -/
def RoundingInterval.onStep? (i : RoundingInterval) (p : Int) : Option Nat :=
  let (c, off, step) := i.below p
  let up := step < 2 * off || (step == 2 * off && c % 2 == 1)
  let (first, second) := if up then (c + 1, c) else (c, c + 1)
  if i.holds first p then some first else if i.holds second p then some second else none

/-- The decimal exponent of the leading digit of a non-zero finite double. -/
def leadingPlace (x : Double) : Int :=
  (Decimal.digitCount (x.units * tenTo 324 / twoTo 1074) : Int) - 325

/-- Tries the grids of `n, n + 1, …` significant digits, at most `tries` of them. -/
def shortestFrom (i : RoundingInterval) (leading : Int) : (tries n : Nat) → Nat × Int
  | 0, _ => (i.value, 0)
  | tries + 1, n =>
    let p := leading - n + 1
    match i.onStep? p with
    | some c => (c, p)
    | none => shortestFrom i leading tries (n + 1)

/-- The fewest digits that read back as the double, nearest to it among those. Seventeen always do. -/
def shortest (x : Double) : Decimal :=
  let found := shortestFrom x.roundingInterval x.leadingPlace 17 1
  ⟨x.negative, found.1, found.2⟩

/-- Digits without the zeros at their end. -/
def dropTrailingZeros (cs : List Char) : List Char :=
  (cs.reverse.dropWhile (· == '0')).reverse

/-- Positional notation: the point goes after the digit of place `0`, with a digit on both sides. -/
def positional (ds : List Char) (place : Int) : List Char :=
  match place with
  | .ofNat e =>
    let whole := ds.take (e + 1) ++ List.replicate (e + 1 - ds.length) '0'
    let part := ds.drop (e + 1)
    whole ++ '.' :: (if part.isEmpty then ['0'] else part)
  | .negSucc e => '0' :: '.' :: (List.replicate e '0' ++ ds)

/-- Scientific notation: one digit before the point, no point when it stands alone, and the exponent
    with its sign. -/
def scientific (ds : List Char) (place : Int) : List Char :=
  let mantissa := match ds with
    | [d] => [d]
    | d :: rest => d :: '.' :: rest
    | [] => []
  mantissa ++ 'e' :: (if place < 0 then '-' else '+') :: Nat.toDigits 10 place.natAbs

/-- The text of a finite double: its shortest digits, positional from `1e-5` up to below `1e+16` and
    scientific outside, zero with its sign. -/
def text (x : Double) : String :=
  let sign := if x.negative then ['-'] else []
  if x.isZero then String.ofList (sign ++ ['0', '.', '0'])
  else
    let d := x.shortest
    let all := Nat.toDigits 10 d.digits
    let place := d.exponent + all.length - 1
    let ds := dropTrailingZeros all
    let body := if -5 ≤ place ∧ place < 16 then positional ds place else scientific ds place
    String.ofList (sign ++ body)

end Double

end Flowgraph
