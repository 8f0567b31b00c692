/-
DiskWatch/Environment.lean

The variables that a program is started with.  A value is a string of bytes,
and most of its readers want a text; a value that is none is passed over.
-/
import DiskWatch.Text.Utf8

namespace DiskWatch

/-- The variables of an environment, by name. -/
abbrev Environment := String → Option (List UInt8)

namespace Environment

/-- No variables. -/
def empty : Environment := fun _ => none

/-- A variable whose value is a text. -/
def text? (env : Environment) (name : String) : Option String := (env name).bind Text.decode?

/-- Sets a variable. -/
def set (env : Environment) (name value : String) : Environment := fun n =>
  if n = name then some value.toUTF8.toList else env n

/-- Sets a variable unless it holds a text. -/
def setMissing (env : Environment) (name value : String) : Environment :=
  if (env.text? name).isSome then env else env.set name value

theorem set_apply_of_ne (env : Environment) {name other : String} (value : String)
    (h : other ≠ name) : env.set name value other = env other := by
  simp [set, h]

/-- A variable that holds a text keeps it. -/
theorem text?_setMissing_of_isSome (env : Environment) {other : String} (name value : String)
    (h : (env.text? other).isSome) : (env.setMissing name value).text? other = env.text? other := by
  unfold setMissing
  split
  · rfl
  · next hn =>
    have : other ≠ name := fun he => hn (he ▸ h)
    simp [text?, set_apply_of_ne env value this]

end Environment

end DiskWatch
