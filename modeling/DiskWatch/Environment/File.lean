/-
DiskWatch/Environment/File.lean

Variables from a file, one `NAME=value` a line.  A value may stand between
apostrophes, where every character means itself, or between quotation marks,
and may then go on over the end of the line; without them it ends at a blank,
behind which only a comment may follow.  Outside of apostrophes a backslash
takes the meaning from the character behind it and a dollar sign stands in
front of the name of a variable.

The file is read up to the first line that is malformed.  What was set before
it stays set (`setUntil`), and a variable that is set already is not changed
(`text?_withFile`).
-/
import DiskWatch.Environment
import DiskWatch.Text.Blank

namespace DiskWatch.Environment

/-! ### Lines -/

/-- How the characters of a line are taken. -/
inductive Quoting
  | plain
  | escape
  | single
  | singleEscape
  | double
  | doubleEscape
  | blank
  | comment
  deriving DecidableEq, Repr

/-- How a character is taken that could begin something. -/
def Quoting.opened (c : Char) : Quoting :=
  match c with
  | '\\' => .escape
  | '"' => .double
  | '\'' => .single
  | _ => .plain

/-- How the next character is taken.  A number sign begins a comment behind a
blank only. -/
def Quoting.next (q : Quoting) (c : Char) : Quoting :=
  match q with
  | .blank => if c == '#' then .comment else opened c
  | .plain => if Text.isBlank c && c != '\n' && c != '\r' then .blank else opened c
  | .escape => .plain
  | .single => if c == '\\' then .singleEscape else if c == '\'' then .plain else .single
  | .singleEscape => .single
  | .double => if c == '\\' then .doubleEscape else if c == '"' then .plain else .double
  | .doubleEscape => .double
  | .comment => .comment

/-- How a line ends, and its characters in front of a comment. -/
def scan : Quoting → List Char → Quoting × List Char
  | q, [] => (q, [])
  | q, c :: cs =>
    match q.next c with
    | .comment => (.comment, [])
    | q => let (ending, kept) := scan q cs; (ending, c :: kept)

/-- The lines with their ends. -/
def splitLines : List Char → List (List Char)
  | [] => []
  | c :: cs =>
    if c == '\n' then [c] :: splitLines cs
    else match splitLines cs with
      | [] => [[c]]
      | line :: rest => (c :: line) :: rest

/-- A line without its end. -/
def dropEnd (line : List Char) : List Char :=
  match line.reverse with
  | '\n' :: '\r' :: rest | '\n' :: rest => rest.reverse
  | _ => line

/-- Whether the first visible character begins a comment. -/
def isComment (line : List Char) : Bool := (Text.trimStart line).head? == some '#'

/-- The entries of a file, of which some go over several lines.  `begun` is what
was read of an entry that is not complete; a file that ends in one is malformed
there. -/
def entries : (begun : List Char) → Quoting → List (List Char) → List (Option (List Char))
  | _, q, [] => if q = .plain then [] else [none]
  | begun, q, line :: rest =>
    if isComment (begun ++ line) then some [] :: entries [] .plain rest
    else match scan q line with
      | (.comment, kept) => some (begun ++ kept) :: entries [] .plain rest
      | (.plain, _) => some (dropEnd (begun ++ line)) :: entries [] .plain rest
      | (q, _) => entries (begun ++ line) q rest

/-! ### Values -/

/-- Whether the name of a variable is being read, and whether in braces. -/
inductive Naming
  | nothing
  | bare
  | braced
  deriving DecidableEq, Repr

/-- A value that is being read. -/
structure Reading where
  single : Bool
  double : Bool
  escaped : Bool
  /-- Nothing but blanks and a comment may follow. -/
  ended : Bool
  commented : Bool
  naming : Naming
  name : List Char
  value : List Char
  deriving DecidableEq, Repr

namespace Reading

/-- Nothing read yet. -/
def start : Reading := ⟨false, false, false, false, false, .nothing, [], []⟩

/-- Adds a character to the value. -/
def add (r : Reading) (c : Char) : Reading := { r with value := r.value ++ [c] }

/-- Puts in the value of the variable that was named. -/
def substitute (value : String → String) (r : Reading) : Reading :=
  { r with
    naming := .nothing
    name := []
    value := r.value ++ (value (String.ofList r.name)).toList }

/-- Takes the character behind a backslash. -/
def unescape (r : Reading) (c : Char) : Option Reading :=
  let r := { r with escaped := false }
  if c == 'n' then some (r.add '\n')
  else if "\\'\"$ ".toList.contains c then some (r.add c)
  else none

/-- Takes a character while a name is read. -/
def nameChar (value : String → String) (r : Reading) (c : Char) : Reading :=
  if c.isAlphanum then { r with name := r.name ++ [c] }
  else match r.naming with
    | .braced =>
      if c == '\x7d' then r.substitute value else { r with name := r.name ++ [c] }
    | _ =>
      if c == '\x7b' && r.name.isEmpty then { r with naming := .braced }
      else
        let r := r.substitute value
        if c == '$' then { r with naming := .bare } else r.add c

/-- Takes one character. -/
def next (value : String → String) (r : Reading) (c : Char) : Option Reading :=
  if r.commented then some r
  else if r.ended then
    if c == ' ' || c == '\t' then some r
    else if c == '#' then some { r with commented := true }
    else none
  else if r.escaped then r.unescape c
  else if r.single then some (if c == '\'' then { r with single := false } else r.add c)
  else if r.naming ≠ .nothing then some (r.nameChar value c)
  else if c == '$' then some { r with naming := .bare }
  else if c == '\\' then some { r with escaped := true }
  else if r.double then some (if c == '"' then { r with double := false } else r.add c)
  else if c == '\'' then some { r with single := true }
  else if c == '"' then some { r with double := true }
  else if c == ' ' || c == '\t' then some { r with ended := true }
  else some (r.add c)

/-- The value at the end of its line. -/
def finish (value : String → String) (r : Reading) : Option String :=
  if r.naming = .braced || r.single || r.double then none
  else some (String.ofList (r.substitute value).value)

end Reading

/-- Reads a value. -/
def readValue (value : String → String) (cs : List Char) : Option String := do
  (← cs.foldlM (Reading.next value) .start).finish value

/-! ### Entries -/

/-- What an entry says. -/
inductive Entry
  | nothing
  | setting (name value : String)
  deriving DecidableEq, Repr

/-- A name and the text behind it and behind blanks. -/
def readName (cs : List Char) : Option (String × List Char) :=
  match cs with
  | c :: _ =>
    let isInner (c : Char) : Bool := c.isAlphanum || c == '_' || c == '.'
    if c.isAlpha || c == '_' then
      some (String.ofList (cs.takeWhile isInner), Text.trimStart (cs.dropWhile isInner))
    else none
  | [] => none

/-- The name that an entry sets and the text behind its equals sign.  The word
`export` may stand in front of the name. -/
def readHead (cs : List Char) : Option (String × List Char) := do
  let (name, rest) ← readName cs
  match rest with
  | '=' :: rest => some (name, rest)
  | rest =>
    if name == "export" then
      match ← readName rest with
      | (name, '=' :: rest) => some (name, rest)
      | _ => none
    else none

/-- Reads an entry. -/
def readEntry (value : String → String) (line : List Char) : Option Entry :=
  let line := Text.trim line
  if line.isEmpty || line.head? == some '#' then some .nothing
  else do
    let (name, rest) ← readHead line
    let rest := Text.trimStart rest
    if rest.isEmpty || rest.head? == some '#' then some (.setting name "")
    else some (.setting name (← readValue value rest))

/-- The value of a variable inside of a value: the environment comes before the
entries of the file. -/
def valueOf (env : Environment) (file : List (String × String)) (name : String) : String :=
  if name.isEmpty then "" else ((env.text? name).or (file.lookup name)).getD ""

/-- Sets the variables of entries, up to the first one that is malformed. -/
def setUntil : Environment → List (String × String) → List (Option (List Char)) → Environment
  | env, _, [] => env
  | env, _, none :: _ => env
  | env, file, some line :: rest =>
    match readEntry (env.valueOf file) line with
    | none => env
    | some .nothing => env.setUntil file rest
    | some (.setting name value) =>
      (env.setMissing name value).setUntil ((name, value) :: file) rest

/-- The text without the mark of its byte order. -/
def dropMark : List Char → List Char
  | c :: cs => if c.toNat = 0xFEFF then cs else c :: cs
  | [] => []

/-- The environment with the variables of a file that are not set already. -/
def withFile (env : Environment) (text : String) : Environment :=
  env.setUntil [] (entries [] .plain (splitLines (dropMark text.toList)))

theorem text?_setUntil (env : Environment) (file : List (String × String))
    (es : List (Option (List Char))) {name : String} (h : (env.text? name).isSome) :
    (env.setUntil file es).text? name = env.text? name := by
  induction es generalizing env file with
  | nil => rfl
  | cons e es ih =>
    cases e with
    | none => rfl
    | some line =>
      simp only [setUntil]
      split
      · rfl
      · exact ih env file h
      · next setName value _ =>
        have hk := text?_setMissing_of_isSome env setName value h
        rw [ih _ _ (by rw [hk]; exact h), hk]

/-- A file changes no variable that holds a text. -/
theorem text?_withFile (env : Environment) (text : String) {name : String}
    (h : (env.text? name).isSome) : (env.withFile text).text? name = env.text? name :=
  text?_setUntil env [] _ h

end DiskWatch.Environment
