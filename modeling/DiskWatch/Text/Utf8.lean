/-
DiskWatch/Text/Utf8.lean

Bytes read as text.  Valid sequences of one to four bytes give their
character; `decode?` refuses anything else, and `decodeLossy` puts one
replacement character for each longest run of bytes that begins a sequence and
is not finished, or for one byte that begins none.

Both readers walk the bytes with the same table of ranges for the byte that
follows the first (`secondRange`), which keeps out overlong forms, surrogates
and code points past the last plane.
-/

namespace DiskWatch.Text

/-- The character that stands for bytes that are no text. -/
def replacement : Char := Char.ofNat 0xFFFD

/-- Whether a byte continues a sequence. -/
def isContinuation (b : UInt8) : Bool := 0x80 ≤ b && b ≤ 0xBF

/-- For the first byte of a longer sequence: the number of bytes to follow, and
the least and greatest value of the second byte. -/
def secondRange (b : UInt8) : Option (Nat × UInt8 × UInt8) :=
  if 0xC2 ≤ b && b ≤ 0xDF then some (1, 0x80, 0xBF)
  else if b == 0xE0 then some (2, 0xA0, 0xBF)
  else if b == 0xED then some (2, 0x80, 0x9F)
  else if 0xE1 ≤ b && b ≤ 0xEF then some (2, 0x80, 0xBF)
  else if b == 0xF0 then some (3, 0x90, 0xBF)
  else if 0xF1 ≤ b && b ≤ 0xF3 then some (3, 0x80, 0xBF)
  else if b == 0xF4 then some (3, 0x80, 0x8F)
  else none

/-- A sequence that is being read: the value so far, the bytes still to come,
and the range of the next one. -/
structure Sequence where
  value : Nat
  missing : Nat
  least : UInt8
  greatest : UInt8

/-- The payload of a first byte that is followed by `n` more. -/
def firstBits (n : Nat) (b : UInt8) : Nat :=
  match n with
  | 1 => b.toNat % 0x20
  | 2 => b.toNat % 0x10
  | _ => b.toNat % 0x08

/-- What a first byte starts. -/
inductive Start
  | whole (c : Char)
  | begun (s : Sequence)
  | wrong

/-- Classifies a byte at the start of a sequence. -/
def startOf (b : UInt8) : Start :=
  if b < 0x80 then .whole (Char.ofNat b.toNat)
  else match secondRange b with
    | some (n, lo, hi) => .begun ⟨firstBits n b, n, lo, hi⟩
    | none => .wrong

/-- Reads bytes, putting the replacement character where they are no text. -/
def decodeFrom : Option Sequence → List UInt8 → List Char
  | none, [] => []
  | some _, [] => [replacement]
  | none, b :: bs =>
    match startOf b with
    | .whole c => c :: decodeFrom none bs
    | .begun s => decodeFrom (some s) bs
    | .wrong => replacement :: decodeFrom none bs
  | some s, b :: bs =>
    if s.least ≤ b && b ≤ s.greatest then
      let value := s.value * 0x40 + b.toNat % 0x40
      if s.missing ≤ 1 then Char.ofNat value :: decodeFrom none bs
      else decodeFrom (some ⟨value, s.missing - 1, 0x80, 0xBF⟩) bs
    else
      match startOf b with
      | .whole c => replacement :: c :: decodeFrom none bs
      | .begun t => replacement :: decodeFrom (some t) bs
      | .wrong => replacement :: replacement :: decodeFrom none bs

/-- Reads bytes as text, with replacement characters for what is none. -/
def decodeLossy (bytes : List UInt8) : String := String.ofList (decodeFrom none bytes)

/-- Reads bytes as text if all of them are. -/
def decodeFrom? : Option Sequence → List UInt8 → Option (List Char)
  | none, [] => some []
  | some _, [] => none
  | none, b :: bs =>
    match startOf b with
    | .whole c => (decodeFrom? none bs).map (c :: ·)
    | .begun s => decodeFrom? (some s) bs
    | .wrong => none
  | some s, b :: bs =>
    if s.least ≤ b && b ≤ s.greatest then
      let value := s.value * 0x40 + b.toNat % 0x40
      if s.missing ≤ 1 then (decodeFrom? none bs).map (Char.ofNat value :: ·)
      else decodeFrom? (some ⟨value, s.missing - 1, 0x80, 0xBF⟩) bs
    else none

/-- Reads bytes as text, or nothing. -/
def decode? (bytes : List UInt8) : Option String := (decodeFrom? none bytes).map String.ofList

end DiskWatch.Text
