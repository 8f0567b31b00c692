/-
DiskWatch/Shell/Printing.lean

The two programs that print their arguments: `echo` as they are, on one line,
and `printf` by a format with escapes and directives.
-/
import DiskWatch.Shell.Effect

namespace DiskWatch.Shell

/-! ### Escapes -/

/-- The byte of an octal number of at most `n` digits. -/
def octal : Nat → Nat → List Char → Nat × List Char
  | n + 1, value, c :: rest =>
    if '0' ≤ c && c ≤ '7' then octal n (8 * value + (c.toNat - 48)) rest else (value, c :: rest)
  | _, value, cs => (value, cs)

/-- The bytes of an escape, behind its backslash. -/
def escape (zeroFirst : Bool) : List Char → List UInt8 × List Char
  | [] => ([92], [])
  | 'a' :: rest => ([7], rest)
  | 'b' :: rest => ([8], rest)
  | 'f' :: rest => ([12], rest)
  | 'n' :: rest => ([10], rest)
  | 'r' :: rest => ([13], rest)
  | 't' :: rest => ([9], rest)
  | 'v' :: rest => ([11], rest)
  | '\\' :: rest => ([92], rest)
  | c :: rest =>
    if '0' ≤ c && c ≤ '7' then
      let (value, rest) := octal (if zeroFirst && c == '0' then 4 else 3) 0 (c :: rest)
      ([UInt8.ofNat value], rest)
    else (92 :: bytes [c], rest)

/-- A text with its escapes replaced, and whether it asks to stop. -/
def unescape : Nat → List Char → List UInt8 × Bool
  | 0, _ => ([], false)
  | _, [] => ([], false)
  | _, '\\' :: 'c' :: _ => ([], true)
  | fuel + 1, '\\' :: rest =>
    let (bs, rest) := escape true rest
    let (more, stop) := unescape fuel rest
    (bs ++ more, stop)
  | fuel + 1, c :: rest =>
    let (more, stop) := unescape fuel rest
    (bytes [c] ++ more, stop)

/-! ### Printing -/

/-- Prints words on a line, which `ends` or not; `escapes` says whether escapes
count. -/
def printLine (ends escapes : Bool) (words : List String) (input : Feed) : Effect :=
  let text := (" ".intercalate words).toList
  let (bs, stop) := if escapes then unescape (text.length + 1) text else (bytes text, false)
  .printing (bs ++ if ends && !stop then [10] else []) input

/-- The `echo` of the shell: escapes always count. -/
def echoHere (arguments : List String) (input : Feed) : Effect :=
  match arguments with
  | "-n" :: words => printLine false true words input
  | words => printLine true true words input

/-- Whether an argument of `echo` consists of options. -/
def isEchoOption (a : String) : Bool :=
  match a.toList with
  | '-' :: c :: cs => (c :: cs).all "neE".toList.contains
  | _ => false

/-- The `echo` that is a program: options say whether escapes count. -/
def echo (arguments : List String) (input : Feed) : Effect :=
  let options := (arguments.takeWhile isEchoOption).flatMap String.toList
  let escapes := ((options.filter fun c => c == 'e' || c == 'E').getLast?).any (· == 'e')
  printLine (!options.contains 'n') escapes (arguments.dropWhile isEchoOption) input

/-- How an argument is set. -/
structure Setting where
  left : Bool
  zeros : Bool
  width : Nat
  places : Option Nat

/-- Reads the flags, the width and the precision of a directive. -/
def setting (cs : List Char) : Setting × List Char :=
  let flags := cs.takeWhile fun c => "-0+ #".toList.contains c
  let rest := cs.drop flags.length
  let width := rest.takeWhile Char.isDigit
  let rest := rest.drop width.length
  let value (ds : List Char) : Nat := ((Text.readUpTo (1_000_000) ds).toOption).getD 0
  let (places, rest) := match rest with
    | '.' :: rest =>
      let ds := rest.takeWhile Char.isDigit
      (some (value ds), rest.drop ds.length)
    | rest => (none, rest)
  (⟨flags.contains '-', flags.contains '0', value width, places⟩, rest)

/-- A text filled up to the width of its setting. -/
def Setting.fill (s : Setting) (numeric : Bool) (bs : List UInt8) : List UInt8 :=
  let missing := s.width - bs.length
  if s.left then bs ++ List.replicate missing 32
  else if s.zeros && numeric then List.replicate missing 48 ++ bs
  else List.replicate missing 32 ++ bs

/-- An argument as a directive asks for it, and whether printing stops. -/
def convert (s : Setting) (kind : Char) (argument : String) : List UInt8 × Bool :=
  let cut (bs : List UInt8) : List UInt8 := match s.places with
    | some n => bs.take n
    | none => bs
  match kind with
  | 'b' =>
    let (bs, stop) := unescape (argument.length + 1) argument.toList
    (s.fill false (cut bs), stop)
  | 'c' => (s.fill false (bytes (argument.toList.take 1)), false)
  | 'd' | 'i' | 'u' => (s.fill true (Text.showInt (numberOf argument)).toUTF8.toList, false)
  | 'o' => (s.fill true (bytes (Nat.toDigits 8 (numberOf argument).toNat)), false)
  | 'x' => (s.fill true (bytes (Nat.toDigits 16 (numberOf argument).toNat)), false)
  | 'X' =>
    (s.fill true (bytes ((Nat.toDigits 16 (numberOf argument).toNat).map Char.toUpper)), false)
  | _ => (s.fill false (cut argument.toUTF8.toList), false)

/-- One pass over a format: the bytes, the arguments that are left, and whether
printing stops. -/
def format : Nat → List Char → List String → List UInt8 × List String × Bool
  | 0, _, arguments => ([], arguments, true)
  | _, [], arguments => ([], arguments, false)
  | fuel + 1, '\\' :: rest, arguments =>
    let (bs, rest) := escape false rest
    let (more, arguments, stop) := format fuel rest arguments
    (bs ++ more, arguments, stop)
  | fuel + 1, '%' :: '%' :: rest, arguments =>
    let (more, arguments, stop) := format fuel rest arguments
    (37 :: more, arguments, stop)
  | fuel + 1, '%' :: rest, arguments =>
    let (s, rest) := setting rest
    match rest with
    | [] => ([37], arguments, true)
    | kind :: rest =>
      let (bs, stop) := convert s kind (arguments.headD "")
      if stop then (bs, arguments.tail, true)
      else
        let (more, arguments, stop) := format fuel rest arguments.tail
        (bs ++ more, arguments, stop)
  | fuel + 1, c :: rest, arguments =>
    let (more, arguments, stop) := format fuel rest arguments
    (bytes [c] ++ more, arguments, stop)

/-- Passes over a format until no argument is left. -/
def formatAll (cs : List Char) : Nat → List String → List UInt8
  | 0, _ => []
  | fuel + 1, arguments =>
    let (bs, left, stop) := format (cs.length + 1) cs arguments
    if stop || left.isEmpty || left.length = arguments.length then bs
    else bs ++ formatAll cs fuel left

/-- Prints its arguments by a format, if there is one. -/
def printf? (arguments : List String) (input : Feed) : Option Effect :=
  match arguments with
  | [] => none
  | layout :: rest => some (.printing (formatAll layout.toList (rest.length + 1) rest) input)

end DiskWatch.Shell
