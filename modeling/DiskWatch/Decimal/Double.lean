/-
DiskWatch/Decimal/Double.lean

A double-precision number taken apart.  A finite number is a whole mantissa
times a power of two, so everything printed about it can be computed exactly
in whole numbers.
-/

namespace DiskWatch.Decimal

/-- The parts of a double. -/
inductive Double
  | nan
  | infinite (negative : Bool)
  /-- The number `mantissa * 2 ^ power`, with its sign.  The gap below a number
  is half the gap above it where `halved` holds. -/
  | finite (negative : Bool) (mantissa : Nat) (power : Int) (halved : Bool)
  deriving DecidableEq, Repr

/-- Takes the 64 bits of a double apart. -/
def Double.ofBits (bits : UInt64) : Double :=
  let n := bits.toNat
  let negative := n >>> 63 == 1
  let exponent : Nat := (n >>> 52) % (1 <<< 11)
  let fraction : Nat := n % (1 <<< 52)
  if exponent = 2047 then if fraction = 0 then .infinite negative else .nan
  else if exponent = 0 then .finite negative fraction (-1074) false
  else .finite negative (fraction + (1 <<< 52)) (Int.ofNat exponent - 1075)
    (fraction = 0 && exponent > 1)

/-- A ratio of two whole numbers, the second positive. -/
structure Ratio where
  num : Nat
  den : Nat

/-- The ratio `n * 2 ^ e`. -/
def Ratio.ofPower (n : Nat) (e : Int) : Ratio :=
  if 0 ≤ e then ⟨n <<< e.toNat, 1⟩ else ⟨n, 1 <<< (-e).toNat⟩

/-- The ratio divided by ten to the power `e`. -/
def Ratio.scaleDown (r : Ratio) (e : Int) : Ratio :=
  if 0 ≤ e then ⟨r.num, r.den * Nat.pow 10 e.toNat⟩ else ⟨r.num * Nat.pow 10 (-e).toNat, r.den⟩

/-- `num / den` rounded to the nearest whole number, a half to the even one. -/
def Ratio.round (r : Ratio) : Nat :=
  let q := r.num / r.den
  let rest := r.num % r.den
  if 2 * rest < r.den then q
  else if r.den < 2 * rest then q + 1
  else if q % 2 = 0 then q else q + 1

end DiskWatch.Decimal
