/-
DiskWatch/Text/Column.lean

Cells of a printed table.  A cell is filled up with blanks to its width,
counted in characters; a longer text is kept whole.
-/

namespace DiskWatch.Text

/-- `n` blanks. -/
def blanks (n : Nat) : String := String.ofList (List.replicate n ' ')

/-- The text at the left of a cell of the given width. -/
def alignLeft (width : Nat) (s : String) : String := s ++ blanks (width - s.length)

/-- The text at the right of a cell of the given width. -/
def alignRight (width : Nat) (s : String) : String := blanks (width - s.length) ++ s

/-- A horizontal rule of the given width. -/
def rule (width : Nat) : String := String.ofList (List.replicate width '-')

/-- Lines, each with its end. -/
def unlines (ls : List String) : String := String.join (ls.map (· ++ "\n"))

end DiskWatch.Text
