/-
DiskWatch/Decimal/Fixed.lean

A double with a fixed number of places.  The exact value is rounded to the
nearest number of that many places, and an exact half goes to the even digit.
-/
import DiskWatch.Decimal.Double
import DiskWatch.Text.Number

namespace DiskWatch.Decimal

/-- `n` in units of the last of `places` places. -/
def withPlaces (places n : Nat) : List Char :=
  let ds := Text.decimal n
  let padded := List.replicate (places + 1 - ds.length) '0' ++ ds
  padded.take (padded.length - places) ++ '.' :: padded.drop (padded.length - places)

/-- A finite double with `places` places, for at least one place. -/
def Double.fixed (places : Nat) : Double → String
  | .nan => "NaN"
  | .infinite negative => (if negative then "-" else "") ++ "inf"
  | .finite negative mantissa power _ =>
    let r := (Ratio.ofPower mantissa power).scaleDown (-(places : Int))
    (if negative then "-" else "") ++ String.ofList (withPlaces places r.round)

end DiskWatch.Decimal
