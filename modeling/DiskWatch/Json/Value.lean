/-
DiskWatch/Json/Value.lean

JSON values and how they are written: without blanks (`compact`), or with one
member or item a line and two blanks of indentation a level (`pretty`).
Members of an object keep their order.
-/
import DiskWatch.Text.Number
import DiskWatch.Text.Quoted

namespace DiskWatch

/-- A number: a whole one of 64 bits, or any other literal as it is written. -/
inductive Json.Number
  | whole (n : Nat)
  | negative (n : Nat)
  | literal (text : String)
  deriving DecidableEq, Repr

/-- A JSON value. -/
inductive Json
  | null
  | bool (b : Bool)
  | number (n : Json.Number)
  | string (s : String)
  | array (items : List Json)
  | object (members : List (String × Json))
  deriving Repr

namespace Json

/-- A whole number as a value. -/
def nat (n : Nat) : Json := .number (.whole n)

/-- The value of a member; of members of one name the first counts. -/
def field? (name : String) : Json → Option Json
  | .object members => members.lookup name
  | _ => none

/-! ### Writing -/

/-- Two hexadecimal digits. -/
def hexByte (n : Nat) : List Char := [Nat.digitChar (n / 16), Nat.digitChar (n % 16)]

/-- One character inside a string. -/
def escapedChar (c : Char) : List Char :=
  match c with
  | '"' => ['\\', '"']
  | '\\' => ['\\', '\\']
  | '\n' => ['\\', 'n']
  | '\r' => ['\\', 'r']
  | '\t' => ['\\', 't']
  | c =>
    if c.toNat = 8 then ['\\', 'b']
    else if c.toNat = 12 then ['\\', 'f']
    else if c.toNat < 32 then ['\\', 'u', '0', '0'] ++ hexByte c.toNat
    else [c]

/-- A string with its quotation marks. -/
def quotedString (s : String) : List Char :=
  '"' :: s.toList.flatMap escapedChar ++ ['"']

/-- A number in decimal notation. -/
def Number.render : Number → List Char
  | .whole n => Text.decimal n
  | .negative n => '-' :: Text.decimal n
  | .literal text => text.toList

/-- What stands between the parts of a value. -/
structure Layout where
  /-- The break after an opening bracket and after a comma, at a depth. -/
  newline : Nat → List Char
  /-- The mark between a name and its value. -/
  colon : List Char

mutual

/-- A value in a layout, at a depth. -/
def renderIn (l : Layout) (depth : Nat) : Json → List Char
  | .null => "null".toList
  | .bool true => "true".toList
  | .bool false => "false".toList
  | .number n => n.render
  | .string s => quotedString s
  | .array [] => ['[', ']']
  | .array (item :: items) =>
    '[' :: l.newline (depth + 1) ++ renderIn l (depth + 1) item ++
      renderItems l (depth + 1) items ++ l.newline depth ++ [']']
  | .object [] => ['\x7b', '\x7d']
  | .object ((name, value) :: members) =>
    '\x7b' :: l.newline (depth + 1) ++ quotedString name ++ l.colon ++
      renderIn l (depth + 1) value ++ renderMembers l (depth + 1) members ++
      l.newline depth ++ ['\x7d']

/-- The items after the first, each after its comma. -/
def renderItems (l : Layout) (depth : Nat) : List Json → List Char
  | [] => []
  | item :: items =>
    ',' :: l.newline depth ++ renderIn l depth item ++ renderItems l depth items

/-- The members after the first, each after its comma. -/
def renderMembers (l : Layout) (depth : Nat) : List (String × Json) → List Char
  | [] => []
  | (name, value) :: members =>
    ',' :: l.newline depth ++ quotedString name ++ l.colon ++ renderIn l depth value ++
      renderMembers l depth members

end

/-- The value without blanks. -/
def compact (j : Json) : String := String.ofList (renderIn ⟨fun _ => [], [':']⟩ 0 j)

/-- The value with one part a line. -/
def pretty (j : Json) : String :=
  String.ofList
    (renderIn ⟨fun depth => '\n' :: List.replicate (2 * depth) ' ', [':', ' ']⟩ 0 j)

end Json

end DiskWatch
