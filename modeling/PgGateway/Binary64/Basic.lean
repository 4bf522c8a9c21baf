/-!
# Doubles by their bit pattern

A double is kept as its sixty-four bits, so that the sign of zero and the payload of a NaN
survive, and is taken apart into an exact whole number times a power of two. No floating-point
operation is used.
-/

namespace PgGateway

/-- A double, given by its bit pattern. -/
structure Binary64 where
  bits : UInt64
deriving DecidableEq, Repr

namespace Binary64

/-- The fifty-two bits of the fraction. -/
def fraction (x : Binary64) : Nat := x.bits.toNat % 0x10000000000000

/-- The eleven bits of the biased exponent. -/
def biased (x : Binary64) : Nat := x.bits.toNat / 0x10000000000000 % 0x800

/-- The sign bit. -/
def negative (x : Binary64) : Bool := 0x8000000000000000 ≤ x.bits.toNat

/-- The double is not a number. -/
def isNaN (x : Binary64) : Bool := x.biased == 0x7FF && x.fraction != 0

/-- The double is one of the two infinities. -/
def isInfinite (x : Binary64) : Bool := x.biased == 0x7FF && x.fraction == 0

/-- A finite double is `significand` times two to the `power`, but for its sign. -/
def significand (x : Binary64) : Nat :=
  if x.biased = 0 then x.fraction else 0x10000000000000 + x.fraction

/-- The power of two that goes with `significand`. -/
def power (x : Binary64) : Int := if x.biased = 0 then -1074 else x.biased - 1075

/-- The magnitude of a finite double, cut to a whole number. -/
def wholePart (x : Binary64) : Nat :=
  x.significand * Nat.pow 2 x.power.toNat / Nat.pow 2 (-x.power).toNat

/-- The largest integer of sixty-four bits. -/
def greatestInt : Int := 0x7FFFFFFFFFFFFFFF

/-- The least integer of sixty-four bits. -/
def leastInt : Int := -0x8000000000000000

/-- The double as an integer of sixty-four bits: cut toward zero, held at the two ends of the
range, and zero if it is not a number. -/
def toInt64 (x : Binary64) : Int64 :=
  if x.isNaN then 0
  else if x.isInfinite then Int64.ofInt (if x.negative then leastInt else greatestInt)
  else if x.negative then Int64.ofInt (max leastInt (-x.wholePart))
  else Int64.ofInt (min greatestInt x.wholePart)

end Binary64

end PgGateway
