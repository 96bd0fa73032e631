/-! Powers of two and of ten, and the ranges of the whole numbers that documents hold. -/

namespace Flowgraph

/-- Two to the power of `n`. -/
def twoTo (n : Nat) : Nat := Nat.pow 2 n

/-- Ten to the power of `n`. -/
def tenTo (n : Nat) : Nat := Nat.pow 10 n

/-- The greatest natural number of 32 bits. -/
def uint32Max : Nat := 4294967295

/-- The greatest natural number of 64 bits. -/
def uint64Max : Nat := 18446744073709551615

/-- The least whole number of 64 bits. -/
def int64Min : Int := -9223372036854775808

/-- The greatest whole number of 64 bits. -/
def int64Max : Int := 9223372036854775807

theorem twoTo_63 : (twoTo 63 : Int) = int64Max + 1 := rfl

end Flowgraph
