/-
DiskWatch/Toml/Document.lean

Reading a whole TOML document.  Values read each other through arrays and
braces; a document is a sequence of headers and entries, read line by line into
the table that the last header opened.

The first argument of the functions that call themselves counts the calls and
starts above the length of the text, so it never decides anything.
-/
import DiskWatch.Toml.Number
import DiskWatch.Toml.Table

namespace DiskWatch.Toml

/-! ### Values -/

/-- The table of the entries between braces. -/
def ofPairs (pairs : List (List String × Toml)) : Option Table :=
  pairs.foldlM (fun t (path, v) =>
    match path.getLast? with
    | some key => t.addValue path.dropLast key v
    | none => none) .fresh

/-- The truth values. -/
def boolean? : Reader Toml
  | 't' :: 'r' :: 'u' :: 'e' :: rest => some (.boolean true, rest)
  | 'f' :: 'a' :: 'l' :: 's' :: 'e' :: rest => some (.boolean false, rest)
  | _ => none

mutual

/-- A value inside `depth` arrays and braces. -/
def value? : Nat → Nat → Reader Toml
  | 0, _, _ => none
  | fuel + 1, depth, cs =>
    match cs with
    | '"' :: _ | '\'' :: _ => (string? cs).map fun (s, rest) => (.string s, rest)
    | '[' :: rest =>
      if depthLimit ≤ depth + 1 then none
      else match skipAll rest with
        | ']' :: rest => some (.array [], rest)
        | rest => (items? fuel (depth + 1) rest).map fun (items, rest) => (.array items, rest)
    | '\x7b' :: rest =>
      if depthLimit ≤ depth + 1 then none
      else match skipSpace rest with
        | '\x7d' :: rest => some ((Table.fresh).value, rest)
        | rest => do
          let (pairs, rest) ← pairs? fuel (depth + 1) rest
          let t ← ofPairs pairs
          some (t.value, rest)
    | 't' :: _ | 'f' :: _ => boolean? cs
    | _ => number? cs

/-- The items of an array up to its closing bracket; there is at least one, and
a comma may follow the last one. -/
def items? : Nat → Nat → Reader (List Toml)
  | 0, _, _ => none
  | fuel + 1, depth, cs => do
    let (v, rest) ← value? fuel depth (skipAll cs)
    match skipAll rest with
    | ']' :: rest => some ([v], rest)
    | ',' :: rest =>
      match skipAll rest with
      | ']' :: rest => some ([v], rest)
      | rest =>
        let (vs, rest) ← items? fuel depth rest
        some (v :: vs, rest)
    | _ => none

/-- The entries between braces, up to the closing one; there is at least one. -/
def pairs? : Nat → Nat → Reader (List (List String × Toml))
  | 0, _, _ => none
  | fuel + 1, depth, cs => do
    let (path, rest) ← key? cs
    let rest ← expect? '=' rest
    let (v, rest) ← value? fuel depth (skipSpace rest)
    match skipSpace rest with
    | '\x7d' :: rest => some ([(path, v)], rest)
    | ',' :: rest =>
      let (ps, rest) ← pairs? fuel depth rest
      some ((path, v) :: ps, rest)
    | _ => none

end

/-! ### Documents -/

/-- What a header opens. -/
structure Place where
  path : List String
  key : String
  /-- Whether the table is one of a list. -/
  inList : Bool

/-- A document that is being read: the tables that are complete, the one that is
being written, and its place; without a place it is the outermost one. -/
structure State where
  root : Table
  current : Table
  place : Option Place

/-- Nothing read yet. -/
def State.start : State := ⟨.fresh, .fresh, none⟩

/-- The outermost table with the current one in its place. -/
def State.complete (s : State) : Option Table :=
  match s.place with
  | none => some s.current
  | some p =>
    if p.inList then s.root.placeLast p.path p.key s.current
    else s.root.place p.path p.key s.current

/-- Opens a table by a header. -/
def State.openTable (s : State) (name : List String) : Option State := do
  let root ← s.complete
  let key ← name.getLast?
  let (current, root) ← root.takeForHeader name.dropLast key
  some ⟨root, current, some ⟨name.dropLast, key, false⟩⟩

/-- Opens one more table of a list by a header. -/
def State.openListed (s : State) (name : List String) : Option State := do
  let root ← s.complete
  let key ← name.getLast?
  let root ← root.prepareList name.dropLast key
  some ⟨root, .fresh, some ⟨name.dropLast, key, true⟩⟩

/-- Adds an entry to the current table. -/
def State.add (s : State) (name : List String) (v : Toml) : Option State := do
  let key ← name.getLast?
  let current ← s.current.addValue name.dropLast key v
  some { s with current := current }

/-- Reads one entry with its line. -/
def entry? (s : State) (cs : List Char) : Option (State × List Char) := do
  let (name, rest) ← key? cs
  let rest ← expect? '=' rest
  let rest := skipSpace rest
  let (v, rest) ← value? (2 * rest.length + 2) 0 rest
  let rest ← lineRest? rest
  some (← s.add name v, rest)

/-- Reads one header with its line. -/
def header? (s : State) : List Char → Option (State × List Char)
  | '[' :: '[' :: cs => do
    let (name, rest) ← key? cs
    match rest with
    | ']' :: ']' :: rest => some (← s.openListed name, ← lineRest? rest)
    | _ => none
  | '[' :: cs => do
    let (name, rest) ← key? cs
    match rest with
    | ']' :: rest => some (← s.openTable name, ← lineRest? rest)
    | _ => none
  | _ => none

/-- Reads one line. -/
def line? (s : State) (cs : List Char) : Option (State × List Char) :=
  match cs with
  | '#' :: _ => (lineRest? cs).map fun rest => (s, rest)
  | '[' :: _ => header? s cs
  | '\n' :: rest => some (s, rest)
  | '\r' :: '\n' :: rest => some (s, rest)
  | cs => entry? s cs

/-- Reads the lines of a document. -/
def lines? : Nat → State → List Char → Option State
  | 0, _, _ => none
  | fuel + 1, s, cs =>
    match skipSpace cs with
    | [] => some s
    | cs => do
      let (s, rest) ← line? s cs
      lines? fuel s rest

/-- The text without the mark of its byte order. -/
def dropMark : List Char → List Char
  | c :: cs => if c.toNat = 0xFEFF then cs else c :: cs
  | [] => []

/-- Reads a document; the result is a table. -/
def parse? (text : String) : Option Toml := do
  let cs := dropMark text.toList
  let s ← lines? (cs.length + 1) .start cs
  let t ← s.complete
  some t.value

end DiskWatch.Toml
