/-
DiskWatch/Toml/Value.lean

TOML values.  A table keeps its keys in the order of the document, because the
first entry that does not fit is the one a complaint is about.  Of a date or
time only the fact is kept: nothing here is configured by one.
-/
import DiskWatch.Decimal.Double

namespace DiskWatch

/-- A TOML value. -/
inductive Toml
  | string (s : String)
  | integer (i : Int)
  | float (x : Decimal.Double)
  | boolean (b : Bool)
  | datetime
  | array (items : List Toml)
  | table (entries : List (String × Toml))
  deriving Repr

end DiskWatch
