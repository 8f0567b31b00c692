/-
DiskWatch/Shell/Reader.lean

Reading a script.  A reader takes the characters still to be read and gives
back what it read and the characters behind it.  The first argument of the
functions that call themselves counts the calls; it starts above what a script
of its length can need.
-/
import DiskWatch.Shell.Arithmetic
import DiskWatch.Shell.Command

namespace DiskWatch.Shell

/-- Why a script is not read. -/
inductive ScriptFault
  | openQuote
  | openBackquote
  | badName
  | unexpected (token : String) (expected : Option String)
  deriving DecidableEq, Repr

/-- The fault in words. -/
def ScriptFault.message : ScriptFault → String
  | .openQuote => "Unterminated quoted string"
  | .openBackquote => "EOF in backquote substitution"
  | .badName => "Bad for loop variable"
  | .unexpected token none => token ++ " unexpected"
  | .unexpected token (some word) => token ++ " unexpected (expecting \"" ++ word ++ "\")"

/-- A reader of scripts. -/
abbrev Reader (α : Type) := List Char → Except ScriptFault (α × List Char)

/-! ### Characters -/

/-- A blank within a line. -/
def isSpace (c : Char) : Bool := c == ' ' || c == '\t'

/-- A character that ends a word. -/
def isMeta (c : Char) : Bool := isSpace c || "\n;&|<>()".toList.contains c

/-- The mark around a command whose output is wanted. -/
def backquote : Char := '\x60'

/-- A character of a word that means itself. -/
def isOrdinary (c : Char) : Bool := !isMeta c && !("\\'\"$".toList.contains c) && c != backquote

/-- A character between quotation marks that means itself. -/
def isInner (c : Char) : Bool := !("\\\"$".toList.contains c) && c != backquote

/-- The first character of a name. -/
def isNameStart (c : Char) : Bool := c.isAlpha || c == '_'

/-- The text behind blanks, and behind a comment. -/
def skipSpace (cs : List Char) : List Char :=
  match cs.dropWhile isSpace with
  | '#' :: rest => rest.dropWhile (· != '\n')
  | rest => rest

/-- The text behind blanks, comments and line ends. -/
def skipLines : Nat → List Char → List Char
  | 0, cs => cs
  | fuel + 1, cs =>
    match skipSpace cs with
    | '\n' :: rest => skipLines fuel rest
    | rest => rest

/-- The text behind a word that it starts with. -/
def behind? (word : String) (cs : List Char) : Option (List Char) :=
  let rest := cs.drop word.length
  if cs.take word.length == word.toList && rest.head?.all isMeta then some rest else none

/-- The words that have a meaning where a command starts. -/
def reservedWords : List String :=
  ["if", "then", "elif", "else", "fi", "while", "until", "for", "do", "done", "\x7b", "\x7d", "!"]

/-- The words that end a list of commands. -/
def closingWords : List String := ["then", "elif", "else", "fi", "do", "done", "\x7d"]

/-- Whether a list of commands ends in front of a text. -/
def closes (cs : List Char) : Bool :=
  cs.isEmpty || cs.head? == some ')' || closingWords.any fun w => (behind? w cs).isSome

/-- The next token. -/
def nextToken (cs : List Char) : String :=
  match cs with
  | [] => "end of file"
  | '\n' :: _ => "newline"
  | c :: d :: _ =>
    if c == d && "&|;".toList.contains c then "\"" ++ String.ofList [c, d] ++ "\""
    else single c
  | [c] => single c
where
  /-- The token that starts with a character. -/
  single (c : Char) : String :=
    if isMeta c then "\"" ++ String.singleton c ++ "\""
    else match reservedWords.find? fun w => (behind? w cs).isSome with
      | some w => "\"" ++ w ++ "\""
      | none => "word"

/-- The fault of a text that cannot go on as it does. -/
def unexpected (cs : List Char) : ScriptFault := .unexpected (nextToken cs) none

/-- The text behind a word that has to come next. -/
def behind (word : String) (cs : List Char) : Except ScriptFault (List Char) :=
  let rest := skipLines (cs.length + 1) cs
  match behind? word rest with
  | some rest => .ok rest
  | none => .error (.unexpected (nextToken rest) (some word))

/-- The text behind a closing bracket that has to come next. -/
def behindBracket (cs : List Char) : Except ScriptFault (List Char) :=
  match cs with
  | ')' :: rest => .ok rest
  | cs => .error (.unexpected (nextToken cs) (some ")"))

/-- The name of a loop in front of a text. -/
def loopName (cs : List Char) : Except ScriptFault (String × List Char) :=
  let cs := skipSpace cs
  let name := cs.takeWhile isNameChar
  if name.head?.any isNameStart then .ok (String.ofList name, cs.drop name.length)
  else .error .badName

/-- The text up to a backquote, and the text behind it. -/
def cutBackquoted : List Char → Option (List Char × List Char)
  | [] => none
  | '\\' :: c :: rest =>
    (cutBackquoted rest).map fun (text, rest) =>
      (if c == backquote || c == '\\' || c == '$' then c :: text else '\\' :: c :: text, rest)
  | c :: rest =>
    if c == backquote then some ([], rest)
    else (cutBackquoted rest).map fun (text, rest) => (c :: text, rest)

/-- The text of an expression up to its two closing brackets, and the text
behind them. -/
def cutExpression : Nat → List Char → Option (List Char × List Char)
  | 0, ')' :: ')' :: rest => some ([], rest)
  | 0, ')' :: _ => none
  | depth + 1, ')' :: rest =>
    (cutExpression depth rest).map fun (text, rest) => (')' :: text, rest)
  | depth, '(' :: rest =>
    (cutExpression (depth + 1) rest).map fun (text, rest) => ('(' :: text, rest)
  | depth, c :: rest => (cutExpression depth rest).map fun (text, rest) => (c :: text, rest)
  | _, [] => none

/-- Commands that have been read and must not be none at all. -/
def atLeastOne (result : Command × List Char) : Except ScriptFault (Command × List Char) :=
  match result with
  | (.nothing, rest) => .error (unexpected rest)
  | result => .ok result

/-- A parameter name in front of a text, behind its dollar sign. -/
def parameter? (cs : List Char) : Option (String × List Char) :=
  match cs with
  | '\x7b' :: rest => (Text.cutAt (· == '\x7d') rest).map fun (name, rest) =>
      (String.ofList name, rest)
  | c :: rest =>
    if isNameStart c then
      some (String.ofList (cs.takeWhile isNameChar), cs.dropWhile isNameChar)
    else if c.isDigit || "@*#?$!-".toList.contains c then some (String.singleton c, rest)
    else none
  | [] => none

/-- A setting in front of a command: a name, an equals sign and a value. -/
def setting? : List Piece → Option (String × List Piece)
  | .plain cs :: pieces =>
    match Text.cutAt (· == '=') cs with
    | none => none
    | some (name, value) =>
      if name.head?.any isNameStart && name.all isNameChar then
        some (String.ofList name, if value.isEmpty then pieces else .plain value :: pieces)
      else none
  | _ => none

/-- The parts of a simple command. -/
structure Parts where
  settings : List (String × List Piece)
  words : List (List Piece)
  redirections : List Redirection

/-- No parts. -/
def Parts.none : Parts := ⟨[], [], []⟩

/-- Whether there is no part. -/
def Parts.isNone (p : Parts) : Bool :=
  p.settings.isEmpty && p.words.isEmpty && p.redirections.isEmpty

/-- The parts with one more word at the end. -/
def Parts.addWord (p : Parts) (word : List Piece) : Parts :=
  match setting? word with
  | some s => if p.words.isEmpty then { p with settings := p.settings ++ [s] }
    else { p with words := p.words ++ [word] }
  | .none => { p with words := p.words ++ [word] }

/-- The descriptor in front of a redirection, which may be left out. -/
def descriptor? (cs : List Char) : Option Nat × List Char :=
  let ds := cs.takeWhile Char.isDigit
  match cs.drop ds.length with
  | c :: rest =>
    if c == '<' || c == '>' then ((Text.readUpTo 9 ds).toOption, c :: rest) else (none, cs)
  | [] => (none, cs)

/-! ### Words and commands -/

mutual

/-- The pieces of a word. -/
def pieces : Nat → Reader (List Piece)
  | 0, cs => .error (unexpected cs)
  | fuel + 1, cs =>
    match cs with
    | [] => .ok ([], [])
    | '\\' :: '\n' :: rest => pieces fuel rest
    | ['\\'] => .ok ([.quoted ['\\']], [])
    | '\\' :: c :: rest => do
      let (ps, rest) ← pieces fuel rest
      .ok (.quoted [c] :: ps, rest)
    | '\'' :: rest =>
      match Text.cutAt (· == '\'') rest with
      | none => .error .openQuote
      | some (s, rest) => do
        let (ps, rest) ← pieces fuel rest
        .ok (.quoted s :: ps, rest)
    | '"' :: rest => do
      let (qs, rest) ← quotedPieces fuel rest
      let (ps, rest) ← pieces fuel rest
      .ok ((if qs.isEmpty then [.quoted []] else qs) ++ ps, rest)
    | '$' :: rest => do
      let (p, rest) ← expansion fuel false rest
      let (ps, rest) ← pieces fuel rest
      .ok (p :: ps, rest)
    | c :: rest =>
      if isMeta c then .ok ([], c :: rest)
      else if c == backquote then do
        let (p, rest) ← backquoted fuel false rest
        let (ps, rest) ← pieces fuel rest
        .ok (p :: ps, rest)
      else do
        let (ps, rest) ← pieces fuel (rest.dropWhile isOrdinary)
        .ok (.plain (c :: cs.tail.takeWhile isOrdinary) :: ps, rest)

/-- The pieces up to a quotation mark. -/
def quotedPieces : Nat → Reader (List Piece)
  | 0, cs => .error (unexpected cs)
  | fuel + 1, cs =>
    match cs with
    | [] | ['\\'] => .error .openQuote
    | '"' :: rest => .ok ([], rest)
    | '\\' :: c :: rest => do
      let (ps, rest) ← quotedPieces fuel rest
      if c == '\n' then .ok (ps, rest)
      else if isInner c then .ok (.quoted ['\\', c] :: ps, rest)
      else .ok (.quoted [c] :: ps, rest)
    | '$' :: rest => do
      let (p, rest) ← expansion fuel true rest
      let (ps, rest) ← quotedPieces fuel rest
      .ok (p :: ps, rest)
    | c :: rest =>
      if c == backquote then do
        let (p, rest) ← backquoted fuel true rest
        let (ps, rest) ← quotedPieces fuel rest
        .ok (p :: ps, rest)
      else do
        let (ps, rest') ← quotedPieces fuel (rest.dropWhile isInner)
        .ok (.quoted (c :: rest.takeWhile isInner) :: ps, rest')

/-- A command between backquotes, behind the first one. -/
def backquoted : Nat → Bool → Reader Piece
  | 0, _, cs => .error (unexpected cs)
  | fuel + 1, quoted, cs =>
    match cutBackquoted cs with
    | none => .error .openBackquote
    | some (text, rest) => do
      let (c, left) ← list fuel text
      if left.isEmpty then .ok (.output c quoted, rest) else .error (unexpected left)

/-- What a dollar sign stands for, behind it. -/
def expansion : Nat → Bool → Reader Piece
  | 0, _, cs => .error (unexpected cs)
  | fuel + 1, quoted, cs =>
    match cs with
    | '(' :: rest =>
      let expression := match rest with
        | '(' :: inside => cutExpression 0 inside
        | _ => none
      match expression with
      | some (text, rest) => .ok (.arithmetic text, rest)
      | none => do
        let (c, rest) ← list fuel rest
        .ok (.output c quoted, ← behindBracket rest)
    | cs =>
      match parameter? cs with
      | some (name, rest) => .ok (.parameter name quoted, rest)
      | none => .ok (if quoted then .quoted ['$'] else .plain ['$'], cs)

/-- A redirection, from its sign on. -/
def redirection : Nat → Option Nat → Reader Redirection
  | 0, _, cs => .error (unexpected cs)
  | fuel + 1, descriptor, cs =>
    let file (make : List Piece → Redirection) (cs : List Char) :
        Except ScriptFault (Redirection × List Char) := do
      let (ps, rest) ← pieces fuel (skipSpace cs)
      if ps.isEmpty then .error (unexpected rest) else .ok (make ps, rest)
    match cs with
    | '>' :: '&' :: c :: rest | '<' :: '&' :: c :: rest =>
      let own := descriptor.getD (if cs.head? == some '>' then 1 else 0)
      match Text.digit? c with
      | some source => .ok (.copy own source, rest)
      | none =>
        if c == '-' then .ok (.close own, rest)
        else .error (unexpected (c :: rest))
    | '>' :: '>' :: rest | '>' :: '|' :: rest | '>' :: rest =>
      file (.write (descriptor.getD 1)) rest
    | '<' :: rest => file .read rest
    | cs => .error (unexpected cs)

/-- The redirections behind a group. -/
def redirections : Nat → Reader (List Redirection)
  | 0, cs => .error (unexpected cs)
  | fuel + 1, cs =>
    let (descriptor, cs) := descriptor? (skipSpace cs)
    match cs with
    | '<' :: _ | '>' :: _ => do
      let (r, rest) ← redirection fuel descriptor cs
      let (rs, rest) ← redirections fuel rest
      .ok (r :: rs, rest)
    | cs => .ok ([], cs)

/-- The parts of a simple command. -/
def parts : Nat → Parts → Reader Parts
  | 0, _, cs => .error (unexpected cs)
  | fuel + 1, p, cs =>
    let (descriptor, cs) := descriptor? (skipSpace cs)
    match cs with
    | '<' :: _ | '>' :: _ => do
      let (r, rest) ← redirection fuel descriptor cs
      parts fuel { p with redirections := p.redirections ++ [r] } rest
    | cs => do
      let (ps, rest) ← pieces fuel cs
      if ps.isEmpty then .ok (p, rest) else parts fuel (p.addWord ps) rest

/-- What follows the start of a branch: a test, and what to do. -/
def branch : Nat → Reader Command
  | 0, cs => .error (unexpected cs)
  | fuel + 1, cs => do
    let (test, rest) ← (← list fuel cs) |> atLeastOne
    let (yes, rest) ← (← list fuel (← behind "then" rest)) |> atLeastOne
    match behind? "elif" rest, behind? "else" rest with
    | some rest, _ => do
      let (no, rest) ← branch fuel rest
      .ok (.branch test yes no, rest)
    | none, some rest => do
      let (no, rest) ← (← list fuel rest) |> atLeastOne
      .ok (.branch test yes no, ← behind "fi" rest)
    | none, none => .ok (.branch test yes .nothing, ← behind "fi" rest)

/-- The body of a loop. -/
def loopBody : Nat → Reader Command
  | 0, cs => .error (unexpected cs)
  | fuel + 1, cs => do
    let (body, rest) ← (← list fuel (← behind "do" cs)) |> atLeastOne
    .ok (body, ← behind "done" rest)

/-- One command that is no simple one, if there is one. -/
def compound : Nat → List Char → Except ScriptFault (Option (Command × List Char))
  | 0, cs => .error (unexpected cs)
  | fuel + 1, cs => do
    let loop (wanted : Bool) (rest : List Char) :
        Except ScriptFault (Option (Command × List Char)) := do
      let (test, rest) ← (← list fuel rest) |> atLeastOne
      let (body, rest) ← loopBody fuel rest
      .ok (some (.loop wanted test body, rest))
    match cs with
    | '(' :: rest => do
      let (c, rest) ← list fuel rest
      if rest.head? == some ')' then
        let (c, rest) ← atLeastOne (c, rest)
        .ok (some (.group true c [], rest.drop 1))
      else .error (.unexpected (nextToken rest) (some ")"))
    | cs =>
      if let some rest := behind? "\x7b" cs then
        let (c, rest) ← (← list fuel rest) |> atLeastOne
        .ok (some (.group false c [], ← behind "\x7d" rest))
      else if let some rest := behind? "if" cs then .ok (some (← branch fuel rest))
      else if let some rest := behind? "while" cs then loop true rest
      else if let some rest := behind? "until" cs then loop false rest
      else if let some rest := behind? "for" cs then
        let (name, rest) ← loopName rest
        let (words, rest) ← match behind? "in" (skipLines (rest.length + 1) rest) with
          | some rest => do
            let (p, rest) ← parts fuel .none rest
            pure (some p.words, rest)
          | none => pure (none, skipSpace rest)
        let rest := match rest with
          | ';' :: rest => rest
          | rest => rest
        let (body, rest) ← loopBody fuel rest
        .ok (some (.each name words body, rest))
      else .ok none

/-- One command. -/
def command : Nat → Reader Command
  | 0, cs => .error (unexpected cs)
  | fuel + 1, cs => do
    let cs := skipSpace cs
    if let some rest := behind? "!" cs then
      let (c, rest) ← pipeline fuel rest
      .ok (.negated c, rest)
    else match ← compound fuel cs with
      | some (c, rest) => do
        let (rs, rest) ← redirections fuel rest
        .ok (c.redirected rs, rest)
      | none => do
        let (p, rest) ← if closes cs then .error (unexpected cs) else parts fuel .none cs
        if p.isNone then .error (unexpected rest)
        else .ok (.simple (rest.count '\n') p.settings p.words p.redirections, rest)

/-- Commands between bars. -/
def pipeline : Nat → Reader Command
  | 0, cs => .error (unexpected cs)
  | fuel + 1, cs => do
    let (c, rest) ← command fuel cs
    match skipSpace rest with
    | '|' :: '|' :: rest => .ok (c, '|' :: '|' :: rest)
    | '|' :: rest => do
      let (d, rest) ← pipeline fuel (skipLines fuel rest)
      .ok (.pipe c d, rest)
    | rest => .ok (c, rest)

/-- Commands that depend on the status of those before; `c` is read already. -/
def conditional : Nat → Command → Reader Command
  | 0, _, cs => .error (unexpected cs)
  | fuel + 1, c, cs =>
    match skipSpace cs with
    | '&' :: '&' :: rest => do
      let (d, rest) ← pipeline fuel (skipLines fuel rest)
      conditional fuel (.both c d) rest
    | '|' :: '|' :: rest => do
      let (d, rest) ← pipeline fuel (skipLines fuel rest)
      conditional fuel (.either c d) rest
    | rest => .ok (c, rest)

/-- Commands one after the other, up to a closing bracket or the end. -/
def list : Nat → Reader Command
  | 0, cs => .error (unexpected cs)
  | fuel + 1, cs =>
    let cs := skipLines (cs.length + 1) cs
    if closes cs then .ok (.nothing, cs)
    else do
      let (c, rest) ← pipeline fuel cs
      let (c, rest) ← conditional fuel c rest
      match rest with
      | ';' :: rest | '\n' :: rest => do
        let (d, rest) ← list fuel rest
        .ok (.sequence c d, rest)
      | '&' :: rest => do
        let (d, rest) ← list fuel rest
        .ok (.sequence (.background c) d, rest)
      | rest => .ok (c, rest)

end

/-- Reads a whole script. -/
def readScript (text : String) : Except ScriptFault Command := do
  let cs := text.toList
  let (c, rest) ← list (10 * (cs.length + 2)) cs
  if rest.isEmpty then .ok c else .error (unexpected rest)

end DiskWatch.Shell
