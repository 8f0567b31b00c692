/-
DiskWatch/Toml/Number.lean

Numbers, dates and times of a TOML document.  An underscore may stand between
two digits.  Whole numbers have 64 bits with a sign; a decimal number is taken
to the nearest double, and one that is too great is malformed.
-/
import DiskWatch.Toml.Text
import DiskWatch.Toml.Value

namespace DiskWatch.Toml

/-! ### Digits -/

/-- Digits of class `p`, with underscores between them; the first one is read. -/
def digitsRest (p : Char → Bool) : List Char → List Char × List Char
  | '_' :: c :: cs =>
    if p c then let (ds, rest) := digitsRest p cs; (c :: ds, rest) else ([], '_' :: c :: cs)
  | c :: cs =>
    if p c then let (ds, rest) := digitsRest p cs; (c :: ds, rest) else ([], c :: cs)
  | [] => ([], [])

/-- At least one digit of class `p`, with underscores between digits. -/
def digits? (p : Char → Bool) : Reader (List Char)
  | c :: cs =>
    if p c then let (ds, rest) := digitsRest p cs; some (c :: ds, rest) else none
  | [] => none

/-- The value of digits in a base. -/
def valueOf (base : Nat) (ds : List Char) : Nat :=
  ds.foldl (fun n c => base * n + (Json.hexDigit? c).getD 0) 0

/-- A sign, if there is one, and whether it is a minus. -/
def sign (cs : List Char) : Bool × List Char :=
  match cs with
  | '-' :: rest => (true, rest)
  | '+' :: rest => (false, rest)
  | cs => (false, cs)

/-- Decimal digits of a whole number: a zero alone, or no leading zero. -/
def wholeDigits? : Reader (List Char)
  | '0' :: cs => some (['0'], cs)
  | cs => digits? Char.isDigit cs

/-! ### Whole numbers -/

/-- A whole number within 64 bits with a sign. -/
def fit? (i : Int) : Option Int :=
  if Int64.minValue.toInt ≤ i ∧ i ≤ Int64.maxValue.toInt then some i else none

/-- A hexadecimal digit. -/
def isHexDigit (c : Char) : Bool := (Json.hexDigit? c).isSome

/-- A whole number behind the mark of its base. -/
def based? (base : Nat) (p : Char → Bool) (cs : List Char) : Option (Int × List Char) := do
  let (ds, rest) ← digits? p cs
  some (← fit? (valueOf base ds), rest)

/-- A whole number. -/
def integer? : Reader Int
  | '0' :: 'x' :: cs => based? 16 isHexDigit cs
  | '0' :: 'o' :: cs => based? 8 (fun c => '0' ≤ c && c ≤ '7') cs
  | '0' :: 'b' :: cs => based? 2 (fun c => c == '0' || c == '1') cs
  | cs => do
    let (negative, cs) := sign cs
    let (ds, rest) ← wholeDigits? cs
    let n : Int := valueOf 10 ds
    some (← fit? (if negative then -n else n), rest)

/-! ### Decimal numbers -/

/-- The exponent of a decimal number. -/
def exponent? : Reader Int
  | e :: cs =>
    if e == 'e' || e == 'E' then do
      let (negative, cs) := sign cs
      let (ds, rest) ← digits? Char.isDigit cs
      let n : Int := valueOf 10 ds
      some (if negative then -n else n, rest)
    else none
  | [] => none

/-- The double nearest to `n * 10 ^ e`.  Far outside the doubles the exponent
alone decides. -/
def nearest (negative : Bool) (n : Nat) (e : Int) : Decimal.Double :=
  let length : Int := (Text.decimal n).length
  let size : Float :=
    if n = 0 || e + length < -400 then 0.0
    else if 400 < e + length then 1.0 / 0.0
    else if 0 ≤ e then Float.ofScientific n false e.toNat
    else Float.ofScientific n true (-e).toNat
  .ofBits (if negative then (-size).toBits else size.toBits)

/-- The words for numbers that are not finite. -/
def special? (negative : Bool) : Reader Decimal.Double
  | 'i' :: 'n' :: 'f' :: rest => some (.infinite negative, rest)
  | 'n' :: 'a' :: 'n' :: rest => some (.nan, rest)
  | _ => none

/-- A decimal number: a whole part, then a fraction, an exponent or both. -/
def float? (cs : List Char) : Option (Decimal.Double × List Char) :=
  let (negative, unsigned) := sign cs
  match special? negative unsigned with
  | some r => some r
  | none => do
    let (whole, cs) ← wholeDigits? unsigned
    let (fraction, exponent, rest) ← match cs with
      | '.' :: cs => do
        let (fraction, cs) ← digits? Char.isDigit cs
        match exponent? cs with
        | some (e, cs) => some (fraction, e, cs)
        | none => some (fraction, 0, cs)
      | cs => do
        let (e, cs) ← exponent? cs
        some ([], e, cs)
    let x := nearest negative (valueOf 10 (whole ++ fraction)) (exponent - fraction.length)
    if x = .infinite false then none else some (x, rest)

/-! ### Dates and times -/

/-- Exactly `n` digits. -/
def fixed? (n : Nat) (cs : List Char) : Option (Nat × List Char) :=
  let ds := cs.take n
  if ds.length = n && ds.all Char.isDigit then some (valueOf 10 ds, cs.drop n) else none

/-- Exactly `n` digits of a number within bounds. -/
def within? (n least greatest : Nat) (cs : List Char) : Option (Nat × List Char) := do
  let (v, rest) ← fixed? n cs
  if least ≤ v && v ≤ greatest then some (v, rest) else none

/-- The text behind a character that must come next. -/
def expect? (c : Char) : List Char → Option (List Char)
  | d :: rest => if c = d then some rest else none
  | [] => none

/-- The days of a month. -/
def daysIn (year month : Nat) : Nat :=
  let leap := year % 4 == 0 && (year % 100 != 0 || year % 400 == 0)
  if month = 2 then if leap then 29 else 28
  else if month = 4 || month = 6 || month = 9 || month = 11 then 30
  else 31

/-- The text behind a date. -/
def date? (cs : List Char) : Option (List Char) := do
  let (year, cs) ← fixed? 4 cs
  let (month, cs) ← within? 2 1 12 (← expect? '-' cs)
  let (_, cs) ← within? 2 1 (daysIn year month) (← expect? '-' cs)
  some cs

/-- The text behind the fraction of a second, if there is one. -/
def secondFraction? : List Char → Option (List Char)
  | '.' :: cs =>
    match cs with
    | c :: _ => if c.isDigit then some (cs.dropWhile Char.isDigit) else some ('.' :: cs)
    | [] => some ['.']
  | cs => some cs

/-- The text behind a time of day. -/
def time? (cs : List Char) : Option (List Char) := do
  let (_, cs) ← within? 2 0 23 cs
  let (_, cs) ← within? 2 0 59 (← expect? ':' cs)
  let (_, cs) ← within? 2 0 60 (← expect? ':' cs)
  secondFraction? cs

/-- The text behind an offset from universal time, if there is one. -/
def offset? (cs : List Char) : Option (List Char) :=
  match cs with
  | 'Z' :: rest | 'z' :: rest => some rest
  | s :: rest =>
    if s == '+' || s == '-' then do
      let (_, cs) ← within? 2 0 23 rest
      let (_, cs) ← within? 2 0 59 (← expect? ':' cs)
      some cs
    else some cs
  | [] => some []

/-- The text behind a date, a time, or both. -/
def datetime? (cs : List Char) : Option (List Char) :=
  match date? cs with
  | none => time? cs
  | some rest =>
    match rest with
    | d :: more =>
      if d == 'T' || d == 't' || d == ' ' then
        match time? more with
        | some rest => offset? rest
        | none => some rest
      else some rest
    | [] => some []

/-- A number, a date or a time. -/
def number? (cs : List Char) : Option (Toml × List Char) :=
  match datetime? cs with
  | some rest => some (.datetime, rest)
  | none =>
    match float? cs with
    | some (x, rest) => some (.float x, rest)
    | none => (integer? cs).map fun (i, rest) => (.integer i, rest)

end DiskWatch.Toml
