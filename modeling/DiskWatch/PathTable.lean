/-
DiskWatch/PathTable.lean

A table from paths to values, in the order of paths.  The entries rise
strictly in that order, so each path, told apart by its components, has one
entry; the type carries this fact.

`insert` keeps the text under which a path came first and takes the new value.
`ofList` builds a table from a list of entries at once, and there the last
entry of a path gives both its text and its value.
-/
import DiskWatch.Path

namespace DiskWatch

variable {α : Type}

/-! ### Sorted lists of entries -/

namespace Entries

/-- The entries rise strictly in the order of paths. -/
def Rising (es : List (Path × α)) : Prop :=
  es.Pairwise fun a b => Path.compare a.1 b.1 = .lt

/-- Puts an entry into its place; `merge` makes one entry out of an old and a
new one of the same path. -/
def insertWith (merge : (old new : Path × α) → Path × α) (e : Path × α) :
    List (Path × α) → List (Path × α)
  | [] => [e]
  | a :: es =>
    match Path.compare e.1 a.1 with
    | .lt => e :: a :: es
    | .eq => merge a e :: es
    | .gt => a :: insertWith merge e es

/-- A merge keeps the components of the path. -/
def Keeps (merge : (old new : Path × α) → Path × α) : Prop :=
  ∀ a e, a.1.components = e.1.components → (merge a e).1.components = a.1.components

theorem compare_congr {p q r : Path} (h : p.components = q.components) :
    Path.compare p r = Path.compare q r := by simp [Path.compare, h]

theorem compare_congr_right {p q r : Path} (h : p.components = q.components) :
    Path.compare r p = Path.compare r q := by simp [Path.compare, h]

/-- Every entry after an insertion has the components of an old or of the new one. -/
theorem mem_insertWith {merge : (old new : Path × α) → Path × α} (hm : Keeps merge)
    {e x : Path × α} {es : List (Path × α)} (hx : x ∈ insertWith merge e es) :
    x.1.components = e.1.components ∨ x ∈ es := by
  induction es with
  | nil => simp [insertWith] at hx; simp [hx]
  | cons a es ih =>
    simp only [insertWith] at hx
    split at hx
    · rcases List.mem_cons.1 hx with rfl | hx
      · exact .inl rfl
      · exact .inr hx
    · next hc =>
      rcases List.mem_cons.1 hx with rfl | hx
      · have := Path.compare_eq_iff.1 hc
        exact .inl ((hm a e this.symm).trans this.symm)
      · exact .inr (List.mem_cons_of_mem _ hx)
    · rcases List.mem_cons.1 hx with rfl | hx
      · exact .inr List.mem_cons_self
      · exact (ih hx).imp_right (List.mem_cons_of_mem _)

theorem rising_insertWith {merge : (old new : Path × α) → Path × α} (hm : Keeps merge)
    (e : Path × α) {es : List (Path × α)} (h : Rising es) : Rising (insertWith merge e es) := by
  induction es with
  | nil => simp [insertWith, Rising]
  | cons a es ih =>
    obtain ⟨ha, hes⟩ := List.pairwise_cons.1 h
    simp only [insertWith]
    split
    · next hc =>
      refine List.pairwise_cons.2 ⟨fun x hx => ?_, h⟩
      rcases List.mem_cons.1 hx with rfl | hx
      · exact hc
      · exact Std.TransCmp.lt_trans hc (ha x hx)
    · next hc =>
      have hk := hm a e (Path.compare_eq_iff.1 hc).symm
      exact List.pairwise_cons.2 ⟨fun x hx => (compare_congr hk).trans (ha x hx), hes⟩
    · next hc =>
      refine List.pairwise_cons.2 ⟨fun x hx => ?_, ih hes⟩
      rcases mem_insertWith hm hx with hx | hx
      · rw [compare_congr_right hx]; exact Std.OrientedCmp.lt_of_gt hc
      · exact ha x hx

/-- The entry of a path that is not there yet is added to the others. -/
theorem insertWith_perm {merge : (old new : Path × α) → Path × α} {e : Path × α}
    {es : List (Path × α)} (h : ∀ a ∈ es, e.1.components ≠ a.1.components) :
    (insertWith merge e es).Perm (e :: es) := by
  induction es with
  | nil => exact List.Perm.refl [e]
  | cons a es ih =>
    simp only [insertWith]
    split
    · exact List.Perm.refl _
    · next hc => exact absurd (Path.compare_eq_iff.1 hc) (h a List.mem_cons_self)
    · have htail := ih fun b hb => h b (List.mem_cons_of_mem a hb)
      exact (htail.cons a).trans (List.Perm.swap e a es)

/-- Old text, new value. -/
def keepText (old new : Path × α) : Path × α := (old.1, new.2)

/-- New text, new value. -/
def keepNew (_old new : Path × α) : Path × α := new

theorem keeps_keepText : Keeps (keepText (α := α)) := fun _ _ _ => rfl
theorem keeps_keepNew : Keeps (keepNew (α := α)) := fun _ _ h => h.symm

end Entries

/-! ### Tables -/

/-- A table from paths to values, in the order of paths. -/
structure PathTable (α : Type) where
  entries : List (Path × α)
  rising : Entries.Rising entries

namespace PathTable

/-- The table without entries. -/
def empty : PathTable α := ⟨[], List.Pairwise.nil⟩

/-- Adds an entry: an old one keeps its text and takes the new value. -/
def insert (t : PathTable α) (p : Path) (a : α) : PathTable α :=
  ⟨Entries.insertWith Entries.keepText (p, a) t.entries,
    Entries.rising_insertWith Entries.keeps_keepText _ t.rising⟩

/-- Adds an entry in place of an old one of the same path. -/
def replace (t : PathTable α) (p : Path) (a : α) : PathTable α :=
  ⟨Entries.insertWith Entries.keepNew (p, a) t.entries,
    Entries.rising_insertWith Entries.keeps_keepNew _ t.rising⟩

/-- The table of a list of entries, the last one of a path counting. -/
def ofList (es : List (Path × α)) : PathTable α :=
  es.foldl (fun t e => t.replace e.1 e.2) empty

/-- The number of paths in the table. -/
def size (t : PathTable α) : Nat := t.entries.length

end PathTable

end DiskWatch
