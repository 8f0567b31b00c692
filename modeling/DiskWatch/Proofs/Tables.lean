/-
DiskWatch/Proofs/Tables.lean

What is left in a table of paths when rows are added to it one after another.  A row is
about a path if it has its components, however the path is spelled (`about`).  A table
has one entry at most about each path, and an addition changes the entries about the
path of its row and no others (`about_insertWith`).

So the table of some rows has one entry about each path of them, with the text of the
first row about it and the value of the last one (`about_ofRows`).  Rows about different
paths are all there is in their table (`ofRows_perm`).
-/
import DiskWatch.PathTable
import Mathlib.Data.List.Induction

namespace DiskWatch

variable {α : Type} {rows es : List (Path × α)} {cs : List Component}

/-! ### Rows about a path -/

/-- The rows about a path. -/
def about (cs : List Component) (rows : List (Path × α)) : List (Path × α) :=
  rows.filter (·.1.components = cs)

/-- What some rows make of a path: the text of the first row about it, and the value of
the last one. -/
def entryOf? (cs : List Component) (rows : List (Path × α)) : Option (Path × α) :=
  (about cs rows).head?.bind fun first =>
    (about cs rows).getLast?.map fun last => (first.1, last.2)

theorem about_cons (cs : List Component) (r : Path × α) (rows : List (Path × α)) :
    about cs (r :: rows) = if r.1.components = cs then r :: about cs rows else about cs rows := by
  rw [about, List.filter_cons]
  simp only [decide_eq_true_eq]
  rfl

theorem about_concat (cs : List Component) (rows : List (Path × α)) (r : Path × α) :
    about cs (rows ++ [r]) =
      if r.1.components = cs then about cs rows ++ [r] else about cs rows := by
  rw [about, List.filter_append]
  split
  · next h =>
    rw [List.filter_cons_of_pos (by simpa using h)]
    rfl
  · next h =>
    rw [List.filter_cons_of_neg (by simpa using h)]
    exact List.append_nil _

theorem entryOf?_of_row (h : about cs rows ≠ []) :
    ∃ first last, (about cs rows).head? = some first ∧ (about cs rows).getLast? = some last ∧
      entryOf? cs rows = some (first.1, last.2) := by
  refine ⟨_, _, List.head?_eq_some_head h, List.getLast?_eq_some_getLast h, ?_⟩
  rw [entryOf?, List.head?_eq_some_head h, List.getLast?_eq_some_getLast h]
  rfl

/-- The value is that of the last row. -/
theorem entryOf?_concat (cs : List Component) (rows : List (Path × α)) (r : Path × α) :
    entryOf? cs (rows ++ [r]) =
      if r.1.components = cs then some (((entryOf? cs rows).map (·.1)).getD r.1, r.2)
      else entryOf? cs rows := by
  rw [entryOf?, about_concat]
  split
  · by_cases hnone : about cs rows = []
    · simp [entryOf?, hnone]
    · obtain ⟨first, last, hfirst, -, he⟩ := entryOf?_of_row hnone
      simp [hfirst, he]
  · rfl

/-! ### Additions -/

namespace Entries

theorem about_eq_nil {p : Path} (h : ∀ x ∈ es, Path.compare p x.1 = .lt) :
    about p.components es = [] := by
  rw [about, List.filter_eq_nil_iff]
  intro x hx heq
  have hsame : Path.compare p x.1 = .eq := Path.compare_eq_iff.2 (of_decide_eq_true heq).symm
  rw [h x hx] at hsame
  cases hsame

/-- After an addition there is one entry about its path, and the others are as they
were. -/
theorem about_insertWith (h : Rising es) (cs : List Component) (e : Path × α) :
    about cs (insertWith keepText e es) =
      if e.1.components = cs then [(((about cs es).head?.map (·.1)).getD e.1, e.2)]
      else about cs es := by
  induction es with
  | nil => exact about_cons cs e []
  | cons x es ih =>
    obtain ⟨hx, hes⟩ := List.pairwise_cons.1 h
    rw [insertWith]
    split
    · next hlt =>
      -- the first entry comes behind the new one, and the others behind it
      have hall : ∀ y ∈ x :: es, Path.compare e.1 y.1 = .lt := by
        intro y hy
        rcases List.mem_cons.1 hy with rfl | hy
        · exact hlt
        · exact Std.TransCmp.lt_trans hlt (hx y hy)
      rw [about_cons cs e]
      split
      · next he =>
        subst he
        rw [about_eq_nil hall]
        rfl
      · rfl
    · next heq =>
      have hsame : e.1.components = x.1.components := Path.compare_eq_iff.1 heq
      rw [keepText, about_cons, about_cons, hsame]
      split
      · next hcs =>
        subst hcs
        rw [about_eq_nil hx]
        rfl
      · rfl
    · next hgt =>
      have hne : e.1.components ≠ x.1.components := by
        intro hsame
        rw [Path.compare_eq_iff.2 hsame] at hgt
        cases hgt
      rw [about_cons, ih hes, about_cons]
      split
      · next hxcs =>
        subst hxcs
        rw [if_neg hne, if_neg hne]
      · rfl

end Entries

/-! ### The table of some rows -/

namespace PathTable

/-- The table of some rows, added one after another. -/
def ofRows (rows : List (Path × α)) : PathTable α :=
  rows.foldl (fun t r => t.insert r.1 r.2) empty

theorem ofRows_concat (rows : List (Path × α)) (r : Path × α) :
    ofRows (rows ++ [r]) = (ofRows rows).insert r.1 r.2 := by
  rw [ofRows, List.foldl_append]
  rfl

/-- About each path, a table has what its rows make of it. -/
theorem about_ofRows (cs : List Component) (rows : List (Path × α)) :
    about cs (ofRows rows).entries = (entryOf? cs rows).toList := by
  induction rows using List.reverseRecOn with
  | nil => rfl
  | append_singleton rows r ih =>
    rw [ofRows_concat, entryOf?_concat]
    refine (Entries.about_insertWith (ofRows rows).rising cs r).trans ?_
    rw [ih]
    split
    · cases entryOf? cs rows <;> rfl
    · rfl

/-- An entry has the text of a row. -/
theorem exists_row_of_mem {e : Path × α} (h : e ∈ (ofRows rows).entries) :
    ∃ r ∈ rows, r.1 = e.1 := by
  have he : e ∈ about e.1.components (ofRows rows).entries := List.mem_filter.2 ⟨h, by simp⟩
  rw [about_ofRows, Option.mem_toList, entryOf?, Option.bind_eq_some_iff] at he
  obtain ⟨first, hfirst, hlast⟩ := he
  obtain ⟨last, -, rfl⟩ := Option.map_eq_some_iff.1 hlast
  exact ⟨first, (List.mem_filter.1 (List.mem_of_mem_head? hfirst)).1, rfl⟩

/-- Rows about different paths are the entries of their table. -/
theorem ofRows_perm (h : rows.Pairwise fun r s => r.1.components ≠ s.1.components) :
    (ofRows rows).entries.Perm rows := by
  induction rows using List.reverseRecOn with
  | nil => exact List.Perm.refl []
  | append_singleton rows r ih =>
    obtain ⟨hrows, -, hlast⟩ := List.pairwise_append.1 h
    have hnew : ∀ x ∈ (ofRows rows).entries, r.1.components ≠ x.1.components := by
      intro x hx
      exact (hlast x ((ih hrows).subset hx) r (List.mem_singleton_self r)).symm
    rw [ofRows_concat]
    have hadded : ((ofRows rows).insert r.1 r.2).entries.Perm (r :: (ofRows rows).entries) :=
      Entries.insertWith_perm hnew
    exact hadded.trans (((ih hrows).cons r).trans (List.perm_append_singleton r rows).symm)

end PathTable

end DiskWatch
