/-
DiskWatch/Decimal/Shortest.lean

The shortest decimal that is closer to a double than to any other.  For one,
two, up to seventeen digits the two neighbours of the number on that decimal
grid are tried; the first grid with a neighbour inside the interval of reals
that round to the number wins, and of two such neighbours the nearer one.

The text of a double is then a matter of `Style`: up to which exponents the
digits are written out with a point, and when powers of ten are used instead.
-/
import DiskWatch.Decimal.Double
import DiskWatch.Text.Number

namespace DiskWatch.Decimal

/-! ### Digits -/

/-- The number `digits * 10 ^ exponent`. -/
structure Digits where
  digits : Nat
  exponent : Int
  deriving DecidableEq, Repr

/-- The least `k` from `start` on with `den ≤ num * 10 ^ k`, tried `fuel` times. -/
def stepsUp (num den : Nat) : Nat → Nat → Nat
  | 0, k => k
  | fuel + 1, k => if den ≤ num * Nat.pow 10 k then k else stepsUp num den fuel (k + 1)

/-- The exponent of the first decimal digit of a positive ratio. -/
def leadingExponent (r : Ratio) : Int :=
  if r.den ≤ r.num then ((Text.decimal (r.num / r.den)).length : Int) - 1
  else -(stepsUp r.num r.den (Text.decimal r.den).length 0 : Int)

/-- The reals that round to `mantissa * 2 ^ power`, in quarters of the gap:
the numbers between `low` and `high` times `2 ^ (power - 2)`. -/
structure Interval where
  low : Nat
  high : Nat
  closed : Bool

/-- The interval around a finite double. -/
def Interval.around (mantissa : Nat) (halved : Bool) : Interval :=
  ⟨4 * mantissa - (if halved then 1 else 2), 4 * mantissa + 2, mantissa % 2 = 0⟩

/-- Whether `candidate * 10 ^ unit` lies in the interval scaled by `2 ^ power`. -/
def Interval.holds (i : Interval) (power : Int) (candidate : Nat) (unit : Int) : Bool :=
  let low := (Ratio.ofPower i.low (power - 2)).scaleDown unit
  let high := (Ratio.ofPower i.high (power - 2)).scaleDown unit
  if i.closed then low.num ≤ candidate * low.den && candidate * high.den ≤ high.num
  else low.num < candidate * low.den && candidate * high.den < high.num

/-- The candidate of `count` digits, if the interval holds one. -/
def candidate? (mantissa : Nat) (power : Int) (i : Interval) (leading : Int) (count : Nat) :
    Option Digits :=
  let unit := leading - ((count : Int) - 1)
  let r := (Ratio.ofPower mantissa power).scaleDown unit
  let below := r.num / r.den
  let above := below + 1
  match i.holds power below unit && 0 < below, i.holds power above unit with
  | true, true => some ⟨r.round, unit⟩
  | true, false => some ⟨below, unit⟩
  | false, true => some ⟨above, unit⟩
  | false, false => none

/-- The digits without trailing zeros. -/
def Digits.reduce (d : Digits) : Digits :=
  let rec go : Nat → Nat → Int → Digits
    | 0, n, e => ⟨n, e⟩
    | fuel + 1, n, e => if n % 10 = 0 ∧ n ≠ 0 then go fuel (n / 10) (e + 1) else ⟨n, e⟩
  go 20 d.digits d.exponent

/-- The shortest digits of a positive finite double. -/
def shortest (mantissa : Nat) (power : Int) (halved : Bool) : Digits :=
  let leading := leadingExponent (Ratio.ofPower mantissa power)
  let i := Interval.around mantissa halved
  match (List.range 17).findSome? fun n => candidate? mantissa power i leading (n + 1) with
  | some d => d.reduce
  | none => ⟨(Ratio.ofPower mantissa power).round, 0⟩

/-! ### Text -/

/-- How digits become a text.  The position of the point is the number of
digits in front of it; outside the limits the text uses a power of ten. -/
structure Style where
  leastPoint : Int
  greatestPoint : Int

/-- Zeros. -/
def zeros (n : Nat) : List Char := List.replicate n '0'

/-- Digits with the point at the given position, at least one on either side. -/
def positional (ds : List Char) (point : Int) : List Char :=
  if point ≤ 0 then ['0', '.'] ++ zeros (-point).toNat ++ ds
  else if (ds.length : Int) ≤ point then ds ++ zeros (point.toNat - ds.length) ++ ['.', '0']
  else ds.take point.toNat ++ ['.'] ++ ds.drop point.toNat

/-- Digits with one of them before the point, and a power of ten. -/
def scientific (ds : List Char) (point : Int) : List Char :=
  (match ds with
    | d :: e :: rest => d :: '.' :: e :: rest
    | ds => ds) ++ 'e' :: (Text.showInt (point - 1)).toList

/-- The text of digits in a style. -/
def Digits.render (style : Style) (d : Digits) : List Char :=
  let ds := Text.decimal d.digits
  let point := (ds.length : Int) + d.exponent
  if style.leastPoint ≤ point ∧ point ≤ style.greatestPoint then positional ds point
  else scientific ds point

/-- The text of a double, with the names of what is not finite left to the caller. -/
def Double.render (style : Style) (nan infinity : String) : Double → String
  | .nan => nan
  | .infinite negative => (if negative then "-" else "") ++ infinity
  | .finite negative mantissa power halved =>
    (if negative then "-" else "") ++
      if mantissa = 0 then "0.0"
      else String.ofList ((shortest mantissa power halved).render style)

end DiskWatch.Decimal
