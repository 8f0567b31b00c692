/-
DiskWatch/Category.lean

The two kinds of measurement.  Each has a queue and a worker of its own, and
`PerCategory` holds one value for each of them.  Changing the value of one
category leaves the other alone by construction (`get_update_of_ne`).
-/

namespace DiskWatch

/-- What a measurement looks at. -/
inductive Category
  | filesystem
  | directory
  deriving DecidableEq, Repr

namespace Category

/-- Both categories, in the order in which they are listed everywhere. -/
def all : List Category := [filesystem, directory]

/-- The name of a category. -/
def name : Category → String
  | filesystem => "filesystem"
  | directory => "directory"

/-- The category of a name. -/
def ofName? (s : String) : Option Category := all.find? (·.name == s)

/-- The other category. -/
def other : Category → Category
  | filesystem => directory
  | directory => filesystem

theorem ofName?_name (c : Category) : ofName? c.name = some c := by
  cases c <;> simp [ofName?, all, name]

theorem mem_all (c : Category) : c ∈ all := by cases c <;> simp [all]

end Category

/-- One value for each category. -/
structure PerCategory (α : Type) where
  filesystem : α
  directory : α
  deriving DecidableEq, Repr

namespace PerCategory

variable {α : Type}

/-- The value of a category. -/
def get (p : PerCategory α) : Category → α
  | .filesystem => p.filesystem
  | .directory => p.directory

/-- Changes the value of one category. -/
def update (p : PerCategory α) (c : Category) (f : α → α) : PerCategory α :=
  match c with
  | .filesystem => { p with filesystem := f p.filesystem }
  | .directory => { p with directory := f p.directory }

/-- Replaces the value of one category. -/
def set (p : PerCategory α) (c : Category) (a : α) : PerCategory α := p.update c fun _ => a

/-- The same value for both categories. -/
def both (a : α) : PerCategory α := ⟨a, a⟩

@[simp] theorem get_update (p : PerCategory α) (c : Category) (f : α → α) :
    (p.update c f).get c = f (p.get c) := by cases c <;> rfl

@[simp] theorem get_update_of_ne (p : PerCategory α) {c d : Category} (f : α → α) (h : d ≠ c) :
    (p.update c f).get d = p.get d := by cases c <;> cases d <;> first | rfl | exact absurd rfl h

@[simp] theorem get_set (p : PerCategory α) (c : Category) (a : α) : (p.set c a).get c = a := by
  simp [set]

@[simp] theorem get_set_of_ne (p : PerCategory α) {c d : Category} (a : α) (h : d ≠ c) :
    (p.set c a).get d = p.get d := by simp [set, h]

@[simp] theorem set_get (p : PerCategory α) (c : Category) : p.set c (p.get c) = p := by
  cases c <;> rfl

@[simp] theorem set_set (p : PerCategory α) (c : Category) (a b : α) :
    (p.set c a).set c b = p.set c b := by cases c <;> rfl

@[simp] theorem get_both (a : α) (c : Category) : (both a).get c = a := by cases c <;> rfl

@[simp] theorem update_set (p : PerCategory α) (c : Category) (a : α) (f : α → α) :
    (p.set c a).update c f = p.set c (f a) := by cases c <;> rfl

theorem update_eq_set (p : PerCategory α) (c : Category) (f : α → α) :
    p.update c f = p.set c (f (p.get c)) := by cases c <;> rfl

/-- Changes of different categories commute. -/
theorem update_comm (p : PerCategory α) {c d : Category} (f g : α → α) (h : c ≠ d) :
    (p.update c f).update d g = (p.update d g).update c f := by
  cases c <;> cases d <;> first | rfl | exact absurd rfl h

end PerCategory

end DiskWatch
