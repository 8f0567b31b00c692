/-
DiskWatch/Text/Quoted.lean

A text shown between quotation marks, as error messages show the line of a
report they complain about.  The quotation mark and the backslash are escaped,
so are the control characters with a short name, and every other character
that is not printable is written by its code point.
-/
import DiskWatch.Text.Printable

namespace DiskWatch.Text

/-- The hexadecimal digits of `n` in front of `acc`, in lower case. -/
def hexOnto (n : Nat) (acc : List Char) : List Char :=
  if n < 16 then Nat.digitChar n :: acc
  else hexOnto (n / 16) (Nat.digitChar (n % 16) :: acc)

/-- One character inside quotation marks. -/
def quotedChar (c : Char) : List Char :=
  match c with
  | '"' => ['\\', '"']
  | '\\' => ['\\', '\\']
  | '\t' => ['\\', 't']
  | '\r' => ['\\', 'r']
  | '\n' => ['\\', 'n']
  | '\x00' => ['\\', '0']
  | c => if isPrintable c then [c] else ['\\', 'u', '\x7b'] ++ hexOnto c.toNat ['\x7d']

/-- The text between quotation marks. -/
def quoted (s : String) : String :=
  String.ofList ('"' :: s.toList.flatMap quotedChar ++ ['"'])

end DiskWatch.Text
