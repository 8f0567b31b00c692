/-
DiskWatch/Guard.lean

The check of a path before any program is called with it: no pattern that
climbs or that a shell would expand, absolute, and there.  The first two can be
decided on the text (`textFault?`); only a path that passes them is looked at.
-/
import DiskWatch.Activity
import DiskWatch.Text.Blank

namespace DiskWatch.Guard

/-- Texts that a measured path must not contain. -/
def forbiddenPatterns : List String := ["..", "~", "*", "?", "["]

/-- Whether a path contains a text. -/
def mentions (p : Path) (pattern : String) : Bool :=
  Text.contains pattern.toList p.text.toList

/-- The fault of a path that its text shows. -/
def textFault? (p : Path) : Option PathFault :=
  match forbiddenPatterns.find? (mentions p) with
  | some pattern => some (.forbidden pattern)
  | none => if p.isAbsolute then none else some .notAbsolute

/-- The fault that a look at a path shows. -/
def statusFault? : PathStatus → Option PathFault
  | .present => none
  | .absent => some .missing
  | .unreadable reason => some (.unreadable reason)

/-- The verdict about a path with or without a fault. -/
def verdict (p : Path) : Option PathFault → Except Error Unit
  | some fault => .error (.invalidPath p fault)
  | none => .ok ()

/-- Checks a path. -/
def check (p : Path) : Activity (Except Error Unit) :=
  match textFault? p with
  | some fault => .done (verdict p (some fault))
  | none => .look p fun status => .done (verdict p (statusFault? status))

/-- Checking a path calls nothing. -/
theorem check_uses (p : Call → Prop) (path : Path) : (check path).Uses p := by
  rw [check]
  split
  · trivial
  · intro status
    trivial

end DiskWatch.Guard
