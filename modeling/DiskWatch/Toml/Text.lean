/-
DiskWatch/Toml/Text.lean

The characters of a TOML document: blanks, comments, keys and strings.  A
reader takes the characters still to be read and gives back what it read and
the characters behind it, or nothing where the document is malformed.
-/
import DiskWatch.Text.Blank
import DiskWatch.Json.Reader

namespace DiskWatch.Toml

/-- A reader. -/
abbrev Reader (α : Type) := List Char → Option (α × List Char)

/-! ### Blanks and comments -/

/-- A blank within a line. -/
def isSpace (c : Char) : Bool := c == ' ' || c == '\t'

/-- The text behind the blanks. -/
def skipSpace (cs : List Char) : List Char := cs.dropWhile isSpace

/-- A character that may stand in a comment: no control character but the tab. -/
def isCommentChar (c : Char) : Bool := c == '\t' || (32 ≤ c.toNat && c.toNat != 127)

/-- The text behind a line end, which is a line feed with or without a carriage
return. -/
def lineEnd? : List Char → Option (List Char)
  | '\n' :: rest => some rest
  | '\r' :: '\n' :: rest => some rest
  | _ => none

/-- The text behind a comment, if there is one. -/
def skipComment : List Char → List Char
  | '#' :: rest => rest.dropWhile isCommentChar
  | cs => cs

/-- The text behind the rest of a line that holds nothing more. -/
def lineRest? (cs : List Char) : Option (List Char) :=
  match skipComment (skipSpace cs) with
  | [] => some []
  | cs => lineEnd? cs

/-- The text behind blanks, comments and line ends.  A comment that no line end
follows is not passed over. -/
def skipLines : Nat → List Char → List Char
  | 0, cs => cs
  | fuel + 1, cs =>
    let cs := skipSpace cs
    match lineEnd? (skipComment cs) with
    | some rest => skipLines fuel rest
    | none => cs

/-- The text behind blanks, comments and line ends. -/
def skipAll (cs : List Char) : List Char := skipLines (cs.length + 1) cs

/-! ### Escapes -/

/-- The value of `n` hexadecimal digits. -/
def hexDigits? : Nat → Nat → List Char → Option (Nat × List Char)
  | 0, value, cs => some (value, cs)
  | _ + 1, _, [] => none
  | n + 1, value, c :: cs =>
    match Json.hexDigit? c with
    | some d => hexDigits? n (16 * value + d) cs
    | none => none

/-- The character with the code point of `n` hexadecimal digits. -/
def codePoint? (n : Nat) (cs : List Char) : Option (Char × List Char) := do
  let (value, rest) ← hexDigits? n 0 cs
  if value.isValidChar then some (Char.ofNat value, rest) else none

/-- The character of an escape, behind the backslash. -/
def escape? : Reader Char
  | 'b' :: rest => some (Char.ofNat 8, rest)
  | 't' :: rest => some ('\t', rest)
  | 'n' :: rest => some ('\n', rest)
  | 'f' :: rest => some (Char.ofNat 12, rest)
  | 'r' :: rest => some ('\r', rest)
  | '"' :: rest => some ('"', rest)
  | '\\' :: rest => some ('\\', rest)
  | 'u' :: rest => codePoint? 4 rest
  | 'U' :: rest => codePoint? 8 rest
  | _ => none

/-! ### Strings -/

/-- A string in quotation marks on one line, behind the first mark. -/
def basicRest? : Nat → Reader (List Char)
  | 0, _ => none
  | _, [] => none
  | _, '"' :: cs => some ([], cs)
  | fuel + 1, '\\' :: cs => do
    let (c, cs) ← escape? cs
    let (s, cs) ← basicRest? fuel cs
    some (c :: s, cs)
  | fuel + 1, c :: cs =>
    if isCommentChar c then (basicRest? fuel cs).map fun (s, cs) => (c :: s, cs) else none

/-- A string in apostrophes on one line, behind the first apostrophe. -/
def literal? (cs : List Char) : Option (List Char × List Char) :=
  let s := cs.takeWhile fun c => isCommentChar c && c != '\''
  match cs.drop s.length with
  | '\'' :: rest => some (s, rest)
  | _ => none

/-- What a run of quotes stands for inside or at the end of a string over
several lines: the quotes that belong to the text, and whether the string ends.
The last three of at least three quotes end it, and at most two more belong to
the text. -/
def closing (run : Nat) : Nat × Bool :=
  if run < 3 then (run, false) else (min (run - 3) 2, true)

/-- The text behind a backslash at the end of a line: blanks, then line ends and
blanks. -/
def lineJoin? (cs : List Char) : Option (List Char) :=
  match lineEnd? (skipSpace cs) with
  | none => none
  | some rest => some (go (rest.length + 1) rest)
where
  /-- Passes over blanks and line ends. -/
  go : Nat → List Char → List Char
    | 0, cs => cs
    | fuel + 1, cs =>
      match lineEnd? (skipSpace cs) with
      | some rest => go fuel rest
      | none => skipSpace cs

/-- A string over several lines, behind its opening marks.  Line ends become
line feeds. -/
def multiRest? (quote : Char) (escapes : Bool) : Nat → Reader (List Char)
  | 0, _ => none
  | _, [] => none
  | fuel + 1, c :: cs =>
    if c == quote then
      let run := 1 + (cs.takeWhile (· == quote)).length
      let (kept, ends) := closing run
      if ends then some (List.replicate kept quote, (c :: cs).drop (kept + 3))
      else
        (multiRest? quote escapes fuel ((c :: cs).drop run)).map fun (s, rest) =>
          (List.replicate run quote ++ s, rest)
    else if c == '\\' && escapes then
      match lineJoin? cs with
      | some rest => multiRest? quote escapes fuel rest
      | none => do
        let (e, rest) ← escape? cs
        let (s, rest) ← multiRest? quote escapes fuel rest
        some (e :: s, rest)
    else match lineEnd? (c :: cs) with
      | some rest => (multiRest? quote escapes fuel rest).map fun (s, rest) => ('\n' :: s, rest)
      | none =>
        if isCommentChar c then
          (multiRest? quote escapes fuel cs).map fun (s, rest) => (c :: s, rest)
        else none

/-- A string over several lines, behind its opening marks; a line end right
behind them does not count. -/
def multi? (quote : Char) (escapes : Bool) (cs : List Char) : Option (List Char × List Char) :=
  let cs := (lineEnd? cs).getD cs
  multiRest? quote escapes (cs.length + 1) cs

/-- A string on one line. -/
def lineString? : Reader (List Char)
  | '"' :: cs => basicRest? (cs.length + 1) cs
  | '\'' :: cs => literal? cs
  | _ => none

/-- A string of any form. -/
def string? : Reader String
  | '"' :: '"' :: '"' :: cs => (multi? '"' true cs).map fun (s, cs) => (String.ofList s, cs)
  | '\'' :: '\'' :: '\'' :: cs => (multi? '\'' false cs).map fun (s, cs) => (String.ofList s, cs)
  | cs => (lineString? cs).map fun (s, cs) => (String.ofList s, cs)

/-! ### Keys -/

/-- A character of a key without quotes. -/
def isBareChar (c : Char) : Bool := c.isAlphanum || c == '-' || c == '_'

/-- One part of a key. -/
def keyPart? (cs : List Char) : Option (String × List Char) :=
  match cs with
  | '"' :: _ | '\'' :: _ => (lineString? cs).map fun (s, cs) => (String.ofList s, cs)
  | cs =>
    let s := cs.takeWhile isBareChar
    if s.isEmpty then none else some (String.ofList s, cs.dropWhile isBareChar)

/-- The parts of a key, between points. -/
def keyParts? : Nat → Reader (List String)
  | 0, _ => none
  | fuel + 1, cs => do
    let (part, cs) ← keyPart? (skipSpace cs)
    match skipSpace cs with
    | '.' :: cs =>
      let (parts, cs) ← keyParts? fuel cs
      some (part :: parts, cs)
    | cs => some ([part], cs)

/-- How deep keys and values may go. -/
def depthLimit : Nat := 80

/-- A key: at least one part, and fewer than the depth limit. -/
def key? (cs : List Char) : Option (List String × List Char) := do
  let (parts, cs) ← keyParts? (cs.length + 1) cs
  if parts.length < depthLimit then some (parts, cs) else none

end DiskWatch.Toml
