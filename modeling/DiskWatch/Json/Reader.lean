/-
DiskWatch/Json/Reader.lean

Reading JSON.  A reader takes the characters still to be read and gives back a
value and the characters behind it, or nothing.  The text must hold one value
and blanks around it, at most 127 arrays and objects may lie within each
other, and a number must not lie beyond the doubles.

The functions on values, items and members call each other on ever shorter
texts; their first argument counts those calls and starts above the length of
the text, so it never decides anything.
-/
import DiskWatch.Json.Value

namespace DiskWatch.Json

/-! ### Blanks and literals -/

/-- Blank characters between the parts of a value. -/
def isSpace (c : Char) : Bool := c == ' ' || c == '\n' || c == '\t' || c == '\r'

/-- The text behind the blanks. -/
def skip (cs : List Char) : List Char := cs.dropWhile isSpace

/-- The text behind a word that it must start with. -/
def expect? (word : List Char) (cs : List Char) : Option (List Char) :=
  if word.isPrefixOf cs then some (cs.drop word.length) else none

/-! ### Strings -/

/-- The value of a hexadecimal digit. -/
def hexDigit? (c : Char) : Option Nat :=
  if '0' ≤ c ∧ c ≤ '9' then some (c.toNat - '0'.toNat)
  else if 'a' ≤ c ∧ c ≤ 'f' then some (c.toNat - 'a'.toNat + 10)
  else if 'A' ≤ c ∧ c ≤ 'F' then some (c.toNat - 'A'.toNat + 10)
  else none

/-- Four hexadecimal digits. -/
def hexUnit? : List Char → Option (Nat × List Char)
  | a :: b :: c :: d :: rest => do
    let a ← hexDigit? a
    let b ← hexDigit? b
    let c ← hexDigit? c
    let d ← hexDigit? d
    some (((a * 16 + b) * 16 + c) * 16 + d, rest)
  | _ => none

/-- The character of an escape by number, which takes two units for a character
beyond the first plane.  A unit of such a pair does not stand alone. -/
def unitEscape? (cs : List Char) : Option (Char × List Char) := do
  let (first, rest) ← hexUnit? cs
  if 0xD800 ≤ first && first < 0xDC00 then
    let rest ← expect? ['\\', 'u'] rest
    let (second, rest) ← hexUnit? rest
    if 0xDC00 ≤ second && second < 0xE000 then
      some (Char.ofNat (0x10000 + (first - 0xD800) * 0x400 + (second - 0xDC00)), rest)
    else none
  else if 0xDC00 ≤ first && first < 0xE000 then none
  else some (Char.ofNat first, rest)

/-- The character of an escape, behind the backslash. -/
def escape? : List Char → Option (Char × List Char)
  | '"' :: rest => some ('"', rest)
  | '\\' :: rest => some ('\\', rest)
  | '/' :: rest => some ('/', rest)
  | 'b' :: rest => some (Char.ofNat 8, rest)
  | 'f' :: rest => some (Char.ofNat 12, rest)
  | 'n' :: rest => some ('\n', rest)
  | 'r' :: rest => some ('\r', rest)
  | 't' :: rest => some ('\t', rest)
  | 'u' :: rest => unitEscape? rest
  | _ => none

/-- The characters up to the closing quotation mark. -/
def stringRest? : Nat → List Char → Option (List Char × List Char)
  | 0, _ => none
  | _, [] => none
  | fuel + 1, c :: cs =>
    if c == '"' then some ([], cs)
    else if c == '\\' then do
      let (e, cs) ← escape? cs
      let (s, cs) ← stringRest? fuel cs
      some (e :: s, cs)
    else if c.toNat < 32 then none
    else do
      let (s, cs) ← stringRest? fuel cs
      some (c :: s, cs)

/-- A string, behind its opening quotation mark. -/
def string? (cs : List Char) : Option (String × List Char) :=
  (stringRest? (cs.length + 1) cs).map fun (s, rest) => (String.ofList s, rest)

/-! ### Numbers -/

/-- The digits at the start of a text. -/
def digits (cs : List Char) : List Char × List Char :=
  (cs.takeWhile Char.isDigit, cs.dropWhile Char.isDigit)

/-- The value of digits. -/
def digitsValue (ds : List Char) : Nat := ds.foldl (fun n c => 10 * n + (c.toNat - 48)) 0

/-- A literal of a number, by parts. -/
structure Literal where
  negative : Bool
  whole : List Char
  fraction : List Char
  exponent : Option (Bool × List Char)

/-- The fraction of a number, if it has one. -/
def fraction? : List Char → Option (List Char × List Char)
  | '.' :: cs => if (digits cs).1.isEmpty then none else some (digits cs)
  | cs => some ([], cs)

/-- The exponent of a number, if it has one. -/
def exponent? (cs : List Char) : Option (Option (Bool × List Char) × List Char) :=
  match cs with
  | [] => some (none, [])
  | e :: rest =>
    if e == 'e' || e == 'E' then
      let (negative, rest) := match rest with
        | '-' :: rest => (true, rest)
        | '+' :: rest => (false, rest)
        | rest => (false, rest)
      if (digits rest).1.isEmpty then none
      else some (some (negative, (digits rest).1), (digits rest).2)
    else some (none, cs)

/-- A literal of a number.  Only a single zero may start with a zero. -/
def literal? (cs : List Char) : Option (Literal × List Char) := do
  let (negative, cs) := match cs with
    | '-' :: rest => (true, rest)
    | cs => (false, cs)
  let (whole, cs) := digits cs
  if whole.isEmpty || (whole.length > 1 && whole.head? == some '0') then none
  else
    let (fraction, cs) ← fraction? cs
    let (exponent, cs) ← exponent? cs
    some (⟨negative, whole, fraction, exponent⟩, cs)

/-- Whether the size of a literal is below every double's bound. -/
def Literal.inRange (l : Literal) : Bool :=
  let mantissa := digitsValue (l.whole ++ l.fraction)
  let down := l.fraction.length
  let bound := (1 <<< 1024) - (1 <<< 970)
  match l.exponent with
  | some (false, es) =>
    let up := digitsValue es
    mantissa == 0 || (up ≤ down + 400 && mantissa * Nat.pow 10 up < bound * Nat.pow 10 down)
  | some (true, es) => mantissa == 0 || l.whole.length ≤ 309 + digitsValue es
  | none => mantissa < bound * Nat.pow 10 down

/-- The text of a literal. -/
def Literal.text (l : Literal) : String :=
  String.ofList ((if l.negative then ['-'] else []) ++ l.whole ++
    (if l.fraction.isEmpty then [] else '.' :: l.fraction) ++
    match l.exponent with
    | some (negative, es) => 'e' :: (if negative then ['-'] else []) ++ es
    | none => [])

/-- The number of a literal.  A whole number that fits into 64 bits is one; a
negative zero is not. -/
def Literal.number? (l : Literal) : Option Number :=
  let n := digitsValue l.whole
  if l.fraction.isEmpty && l.exponent.isNone && !l.negative && n < UInt64.size then some (.whole n)
  else if l.fraction.isEmpty && l.exponent.isNone && l.negative && 0 < n && n ≤ (1 <<< 63) then
    some (.negative n)
  else if l.inRange then some (.literal l.text)
  else none

/-! ### Values -/

mutual

/-- A value, with the number of arrays and objects that may still be opened. -/
def value? : Nat → Nat → List Char → Option (Json × List Char)
  | 0, _, _ => none
  | fuel + 1, depth, cs =>
    match skip cs with
    | '"' :: rest => (string? rest).map fun (s, rest) => (.string s, rest)
    | '[' :: rest =>
      if depth ≤ 1 then none
      else match skip rest with
        | ']' :: rest => some (.array [], rest)
        | rest => (items? fuel (depth - 1) rest).map fun (items, rest) => (.array items, rest)
    | '\x7b' :: rest =>
      if depth ≤ 1 then none
      else match skip rest with
        | '\x7d' :: rest => some (.object [], rest)
        | rest =>
          (members? fuel (depth - 1) rest).map fun (members, rest) => (.object members, rest)
    | 'n' :: rest => (expect? "ull".toList rest).map fun rest => (.null, rest)
    | 't' :: rest => (expect? "rue".toList rest).map fun rest => (.bool true, rest)
    | 'f' :: rest => (expect? "alse".toList rest).map fun rest => (.bool false, rest)
    | cs => do
      let (l, rest) ← literal? cs
      let n ← l.number?
      some (.number n, rest)

/-- The items of an array up to its closing bracket; there is at least one. -/
def items? : Nat → Nat → List Char → Option (List Json × List Char)
  | 0, _, _ => none
  | fuel + 1, depth, cs => do
    let (item, rest) ← value? fuel depth cs
    match skip rest with
    | ',' :: rest =>
      let (items, rest) ← items? fuel depth rest
      some (item :: items, rest)
    | ']' :: rest => some ([item], rest)
    | _ => none

/-- The members of an object up to its closing brace; there is at least one. -/
def members? : Nat → Nat → List Char → Option (List (String × Json) × List Char)
  | 0, _, _ => none
  | fuel + 1, depth, cs =>
    match skip cs with
    | '"' :: rest => do
      let (name, rest) ← string? rest
      match skip rest with
      | ':' :: rest =>
        let (value, rest) ← value? fuel depth rest
        match skip rest with
        | ',' :: rest =>
          let (members, rest) ← members? fuel depth rest
          some ((name, value) :: members, rest)
        | '\x7d' :: rest => some ([(name, value)], rest)
        | _ => none
      | _ => none
    | _ => none

end

/-- The value that a text holds. -/
def parse? (text : String) : Option Json := do
  let cs := text.toList
  let (j, rest) ← value? (2 * cs.length + 2) 128 cs
  if (skip rest).isEmpty then some j else none

end DiskWatch.Json
