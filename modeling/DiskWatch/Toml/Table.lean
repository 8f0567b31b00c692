/-
DiskWatch/Toml/Table.lean

Tables while a document is being read.  A table is written once: by a header,
by the keys with points that lead through it, or inside braces.  What has been
written in one of these ways cannot be written again in another one, so a table
remembers whether it only came up on the way to another one (`passing`) and
whether keys with points made it (`dotted`).
-/
import DiskWatch.Toml.Value

namespace DiskWatch.Toml

mutual

/-- What a key holds: a value that is complete, a table, or a list of tables. -/
inductive Node
  | value (v : Toml)
  | table (t : Table)
  | tables (ts : List Table)

/-- A table that is being written. -/
inductive Table
  | mk (passing dotted : Bool) (entries : List (String × Node))

end

namespace Table

/-- Whether the table only came up on the way to another one. -/
def passing : Table → Bool
  | mk p _ _ => p

/-- Whether keys with points made the table. -/
def dotted : Table → Bool
  | mk _ d _ => d

/-- The entries in the order of the document. -/
def entries : Table → List (String × Node)
  | mk _ _ es => es

/-- A table that a header writes. -/
def fresh : Table := mk false false []

/-- What a key holds. -/
def get? (t : Table) (key : String) : Option Node := t.entries.lookup key

/-- Replaces what a key holds, or adds the key at the end. -/
def put (t : Table) (key : String) (n : Node) : Table :=
  let es := t.entries
  mk t.passing t.dotted
    (if es.any (·.1 == key) then es.map fun e => if e.1 == key then (key, n) else e
      else es ++ [(key, n)])

/-- Removes a key. -/
def remove (t : Table) (key : String) : Table :=
  mk t.passing t.dotted (t.entries.filter (·.1 != key))

/-- The table with its entries, as one that a header writes. -/
def reopened (t : Table) : Table := mk false false t.entries

/-- Changes the table at the end of a path.  Missing tables on the way are
added; of a list of tables the last one is meant.  Keys with points pass only
through tables that nothing else has written. -/
def changeAt {α : Type} (byDots : Bool) :
    List String → (Table → Option (α × Table)) → Table → Option (α × Table)
  | [], f, t => f t
  | key :: path, f, t =>
    match (t.get? key).getD (.table (mk true byDots [])) with
    | .value _ => none
    | .tables ts =>
      match ts.getLast? with
      | none => none
      | some last => do
        let (a, last) ← changeAt byDots path f last
        some (a, t.put key (.tables (ts.dropLast ++ [last])))
    | .table child =>
      if byDots && !child.passing then none
      else do
        let (a, child) ← changeAt byDots path f child
        some (a, t.put key (.table child))

/-- Adds a value under a key with the given parts before its last one. -/
def addValue (t : Table) (path : List String) (key : String) (v : Toml) : Option Table :=
  (t.changeAt true path fun inner =>
    if inner.dotted == path.isEmpty then none
    else if (inner.get? key).isSome then none
    else some ((), inner.put key (.value v))).map (·.2)

/-- Looks up the place of a header and takes out a table that only came up on
the way to another one, to be written on. -/
def takeForHeader (t : Table) (path : List String) (key : String) : Option (Table × Table) :=
  t.changeAt false path fun parent =>
    match parent.get? key with
    | none => some (fresh, parent)
    | some (.table child) =>
      if child.passing && !child.dotted then some (child.reopened, parent.remove key) else none
    | some _ => none

/-- Looks up the place of a header of a list of tables. -/
def prepareList (t : Table) (path : List String) (key : String) : Option Table :=
  (t.changeAt false path fun parent =>
    match parent.get? key with
    | none => some ((), parent.put key (.tables []))
    | some (.tables _) => some ((), parent)
    | some _ => none).map (·.2)

/-- Puts a written table into its place. -/
def place (t : Table) (path : List String) (key : String) (written : Table) : Option Table :=
  (t.changeAt false path fun parent =>
    match parent.get? key with
    | none => some ((), parent.put key (.table written))
    | some _ => none).map (·.2)

/-- Puts a written table at the end of its list. -/
def placeLast (t : Table) (path : List String) (key : String) (written : Table) :
    Option Table :=
  (t.changeAt false path fun parent =>
    match parent.get? key with
    | some (.tables ts) => some ((), parent.put key (.tables (ts ++ [written])))
    | _ => none).map (·.2)

mutual

/-- The table as a value. -/
def value : Table → Toml
  | mk _ _ es => .table (entryValues es)

/-- The entries as values. -/
def entryValues : List (String × Node) → List (String × Toml)
  | [] => []
  | (key, node) :: rest => (key, nodeValue node) :: entryValues rest

/-- What a key holds, as a value. -/
def nodeValue : Node → Toml
  | .value v => v
  | .table t => value t
  | .tables ts => .array (tableValues ts)

/-- Tables as values. -/
def tableValues : List Table → List Toml
  | [] => []
  | t :: rest => value t :: tableValues rest

end

end Table

end DiskWatch.Toml
