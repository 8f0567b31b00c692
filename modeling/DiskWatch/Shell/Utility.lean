/-
DiskWatch/Shell/Utility.lean

The programs of a host: small ones that copy, cut, count, replace or wait.  A
program is a function from its arguments and its input to its effect.

Main result: cutting a text behind some lines loses nothing
(`splitLines_append`).
-/
import DiskWatch.Shell.Printing
import DiskWatch.Text.Column

namespace DiskWatch.Shell

/-! ### Copies of the input -/

/-- A complaint about the arguments of a program. -/
def withHint (name text : String) : String :=
  name ++ ": " ++ text ++ "\nTry '" ++ name ++ " --help' for more information."

/-- What a program does that reads files one after the other, or its input;
`about` is how it speaks of a file that it cannot read. -/
def overFiles (host : Host) (about : String → String) (files : List String) (input : Feed)
    (read : Feed → Effect) : Effect :=
  (if files.isEmpty then ["-"] else files).foldl (fun e file =>
    if e.lasts.isNone then e
    else
      let feed : Except HostFault Feed := if file == "-" then .ok e.input else feedAt host file
      match feed with
      | .ok feed =>
        let here := read feed
        { e with
          stdout := e.stdout ++ here.stdout
          input := if file == "-" then here.input else e.input
          lasts := here.lasts }
      | .error fault =>
        let complaint := lineBytes (about file ++ ": " ++ fault.text)
        { e with stderr := e.stderr ++ complaint, status := 1 })
    (.quiet 0 input)

/-- Copies files. -/
def cat (host : Host) (files : List String) (input : Feed) : Effect :=
  overFiles host ("cat: " ++ ·) files input (.filtering id)

/-- The first lines, and what follows them. -/
def splitLines : Nat → List UInt8 → List UInt8 × List UInt8
  | _, [] => ([], [])
  | 0, bs => ([], bs)
  | n + 1, bs =>
    let line := bs.takeWhile (· != 10)
    match bs.dropWhile (· != 10) with
    | [] => (line, [])
    | stop :: rest =>
      let (lines, rest) := splitLines n rest
      (line ++ stop :: lines, rest)

theorem splitLines_append (n : Nat) (bs : List UInt8) :
    (splitLines n bs).1 ++ (splitLines n bs).2 = bs := by
  induction n generalizing bs with
  | zero => cases bs <;> simp [splitLines]
  | succ n ih =>
    cases bs with
    | nil => simp [splitLines]
    | cons b bs =>
      have hcut : (b :: bs).takeWhile (· != 10) ++ (b :: bs).dropWhile (· != 10) = b :: bs :=
        List.takeWhile_append_dropWhile
      simp only [splitLines]
      split
      · next h => rw [h] at hcut; simpa using hcut
      · next stop rest h =>
        rw [h] at hcut
        simpa [ih rest] using hcut

/-- How much of an input is asked for: so many bytes or lines, or all from a
certain one on. -/
structure Amount where
  inBytes : Bool
  fromStart : Bool
  count : Nat
  deriving DecidableEq, Repr

/-- The amount that a number asks for. -/
def amount? (inBytes : Bool) (text : List Char) : Option Amount :=
  match text with
  | '+' :: ds => (Text.readUpTo (1 <<< 63) ds).toOption.map (⟨inBytes, true, ·⟩)
  | '-' :: ds | ds => (Text.readUpTo (1 <<< 63) ds).toOption.map (⟨inBytes, false, ·⟩)

/-- The amount that the arguments ask for, and the files behind it. -/
def amountOf (arguments : List String) : Option (Amount × List String) :=
  match arguments with
  | "-n" :: count :: files => (amount? false count.toList).map (·, files)
  | "-c" :: count :: files => (amount? true count.toList).map (·, files)
  | first :: files =>
    match first.toList with
    | '-' :: 'n' :: count => (amount? false count).map (·, files)
    | '-' :: 'c' :: count => (amount? true count).map (·, files)
    | '-' :: c :: count =>
      if c.isDigit then (amount? false (c :: count)).map (·, files) else none
    | _ => some (⟨false, false, 10⟩, first :: files)
  | [] => some (⟨false, false, 10⟩, [])

/-- How `head` and `tail` speak of a file that they cannot read. -/
def cannotOpen (name file : String) : String :=
  name ++ ": cannot open '" ++ file ++ "' for reading"

/-- Copies the beginning of its input. -/
def head (host : Host) (arguments : List String) (input : Feed) : Effect :=
  match amountOf arguments with
  | none => .complaining "head: invalid number" 1 input
  | some (a, files) =>
    overFiles host (cannotOpen "head") files input fun feed =>
      let (taken, rest) :=
        if a.inBytes then feed.bytes.splitAt a.count else splitLines a.count feed.bytes
      ⟨taken, [], { feed with bytes := rest }, 0,
        if rest.isEmpty && feed.endless then none else some 0⟩

/-- The end of a text. -/
def Amount.lastPart (a : Amount) (bs : List UInt8) : List UInt8 :=
  if a.inBytes then
    bs.drop (if a.fromStart then a.count - 1 else bs.length - a.count)
  else
    let isOpen := bs.getLast?.any (· != 10)
    let lines := bs.count 10 + if isOpen then 1 else 0
    (splitLines (if a.fromStart then a.count - 1 else lines - a.count) bs).2

/-- Copies the end of its input. -/
def tail (host : Host) (arguments : List String) (input : Feed) : Effect :=
  match amountOf arguments with
  | none => .complaining "tail: invalid number" 1 input
  | some (a, files) =>
    overFiles host (cannotOpen "tail") files input fun feed =>
      if feed.endless then ⟨[], [], .empty, 0, none⟩ else .filtering a.lastPart feed

/-! ### Counts and replacements -/

/-- The number of words. -/
def countWords (bs : List UInt8) : Nat :=
  let isGap (b : UInt8) : Bool := b == 32 || (9 ≤ b && b ≤ 13)
  (bs.zip (32 :: bs)).countP fun (b, before) => !isGap b && isGap before

/-- Counts lines, words and bytes. -/
def wc (host : Host) (arguments : List String) (input : Feed) : Effect :=
  let (options, files) := arguments.partition fun a => a.startsWith "-" && a != "-"
  let asks (c : Char) : Bool := options.isEmpty || options.any fun o => o.toList.contains c
  let counts (bs : List UInt8) : List Nat :=
    (if asks 'l' then [bs.count 10] else []) ++ (if asks 'w' then [countWords bs] else []) ++
      (if asks 'c' then [bs.length] else [])
  let line (numbers : List Nat) : String :=
    match numbers with
    | [n] => Text.showNat n
    | ns => " ".intercalate (ns.map fun n => Text.alignRight 7 (Text.showNat n))
  let names := " ".intercalate files
  overFiles host ("wc: " ++ ·) files input fun feed =>
    if feed.endless then ⟨[], [], .empty, 0, none⟩
    else .filtering (fun bs =>
      lineBytes (line (counts bs) ++ if names.isEmpty then "" else " " ++ names)) feed

/-- The bytes from one to another one. -/
def byteRange (first last : UInt8) : List UInt8 :=
  (List.range (last.toNat + 1 - first.toNat)).map fun i => first + UInt8.ofNat i

/-- The bytes that a set names, with its ranges. -/
def rangesOf : List UInt8 → List UInt8
  | first :: 45 :: last :: rest => byteRange first last ++ rangesOf rest
  | b :: rest => b :: rangesOf rest
  | [] => []

/-- The bytes of a set. -/
def setOf (text : String) : List UInt8 :=
  match text with
  | "[:lower:]" => byteRange 97 122
  | "[:upper:]" => byteRange 65 90
  | "[:digit:]" => byteRange 48 57
  | "[:space:]" => 32 :: byteRange 9 13
  | text => rangesOf (unescape (text.length + 1) text.toList).1

/-- Replaces bytes, each by the one at its place in another set. -/
def replaceFrom (source target : List UInt8) (b : UInt8) : UInt8 :=
  match source.idxOf? b with
  | none => b
  | some i => (target[min i (target.length - 1)]?).getD b

/-- Replaces bytes of its input or leaves them out. -/
def tr (arguments : List String) (input : Feed) : Effect :=
  match arguments with
  | ["-d", left] => .filtering (·.filter fun b => !(setOf left).contains b) input
  | [source, target] => .filtering (·.map (replaceFrom (setOf source) (setOf target))) input
  | _ => .complaining (withHint "tr" "missing operand") 1 input

/-! ### Time -/

/-- The nanoseconds of a unit of time. -/
def unitNanos? : List Char → Option Nat
  | [] | ['s'] => some nanosPerSecond
  | ['m'] => some (60 * nanosPerSecond)
  | ['h'] => some (3600 * nanosPerSecond)
  | ['d'] => some (86400 * nanosPerSecond)
  | _ => none

/-- The nanoseconds of a decimal number with a unit. -/
def span? (cs : List Char) : Option Nat := do
  let whole := cs.takeWhile Char.isDigit
  let rest := cs.drop whole.length
  let (fraction, rest) := match rest with
    | '.' :: rest => (rest.takeWhile Char.isDigit, rest.dropWhile Char.isDigit)
    | rest => ([], rest)
  if whole.isEmpty && fraction.isEmpty then none
  else
    let unit ← unitNanos? rest
    let digits := whole ++ fraction
    let value := digits.foldl (fun n c => 10 * n + (c.toNat - 48)) 0
    some (value * unit / Nat.pow 10 fraction.length)

/-- The time that an argument of `sleep` stands for; it may be no time in
particular, which is for ever. -/
def pause? (argument : String) : Option (Option Nat) :=
  if argument == "infinity" then some none else (span? argument.toList).map some

/-- Waits for the sum of its arguments. -/
def sleep (arguments : List String) (input : Feed) : Effect :=
  let wrong := arguments.filter fun a => (pause? a).isNone
  if arguments.isEmpty then .complaining (withHint "sleep" "missing operand") 1 input
  else if wrong.isEmpty then
    ⟨[], [], input, 0, ((arguments.filterMap pause?).mapM id).map (·.foldl (· + ·) 0)⟩
  else
    let text := "\nsleep: ".intercalate (wrong.map fun a => "invalid time interval '" ++ a ++ "'")
    .complaining (withHint "sleep" text) 1 input

/-! ### Sequences -/

/-- Prints whole numbers from a first to a last one. -/
def seq (arguments : List String) (input : Feed) : Effect :=
  let (first, stride, last) : Int × Int × Int := match arguments.map numberOf with
    | [last] => (1, 1, last)
    | [first, last] => (first, 1, last)
    | first :: stride :: last :: _ => (first, stride, last)
    | [] => (1, 1, 0)
  let count := if stride = 0 then 0 else ((last - first).fdiv stride + 1).toNat
  let number (i : Nat) : Int := first + i * stride
  .printing ((List.range count).flatMap fun i => lineBytes (Text.showInt (number i))) input

/-- The number of bytes by which an output without end is known. -/
def glimpse : Nat := 1 <<< 20

/-- Prints a line for ever. -/
def yes (arguments : List String) (input : Feed) : Effect :=
  let line := lineBytes (if arguments.isEmpty then "y" else " ".intercalate arguments)
  ⟨(List.replicate (glimpse / line.length) line).flatten, [], input, 0, none⟩

/-- What a program of a name does, if there is one of the name. -/
def utility? (host : Host) (name : String) (arguments : List String) (input : Feed) :
    Option Effect :=
  match name with
  | "true" => some (.quiet 0 input)
  | "false" => some (.quiet 1 input)
  | "echo" => some (echo arguments input)
  | "printf" =>
    let refusal := .complaining (withHint "printf" "missing operand") 1 input
    some ((printf? arguments input).getD refusal)
  | "cat" => some (cat host arguments input)
  | "head" => some (head host arguments input)
  | "tail" => some (tail host arguments input)
  | "wc" => some (wc host arguments input)
  | "tr" => some (tr arguments input)
  | "sleep" => some (sleep arguments input)
  | "seq" => some (seq arguments input)
  | "yes" => some (yes arguments input)
  | _ => none

end DiskWatch.Shell
