/-
DiskWatch/Proofs/Depth.lean

The samples of a base down to a depth.  From a table they are picked by counting
components, and listed by level and by path within a level.  Since a table has
one entry for each path, the order is strict (`inside_pairwise`), and two tables
with the same entries are one table (`eq_of_perm`).

Put behind the reading of a report, this says what a measurement of a directory
finds: each directory of the report that is not too deep, once, in this order,
whatever the order of the rows was (`depth_inclusive`).
-/
import DiskWatch.Proofs.Report

namespace DiskWatch

/-! ### Tables with the same entries -/

theorem PathTable.eq_of_perm {α : Type} {t u : PathTable α} (h : t.entries.Perm u.entries) :
    t = u := by
  have hone : ∀ a b : Path × α, a ∈ t.entries → b ∈ u.entries →
      Path.compare a.1 b.1 = .lt → Path.compare b.1 a.1 = .lt → a = b := by
    intro a b _ _ hab hba
    exact absurd hba (Std.OrientedCmp.not_lt_of_lt hab)
  have he : t.entries = u.entries := List.Perm.eq_of_pairwise hone t.rising u.rising h
  cases t
  cases u
  cases he
  rfl

namespace Usage

/-! ### The order of samples -/

namespace Sample

/-- Samples come by level, and by path within a level. -/
def Before (a b : Sample) : Prop :=
  a.level < b.level ∨ a.level = b.level ∧ Path.compare a.path b.path = .lt

variable {a b : Sample}

theorem le_iff : le a b = true ↔
    a.level < b.level ∨ a.level = b.level ∧ (Path.compare a.path b.path).isLE = true := by
  simp [le]

theorem le_trans (a b c : Sample) (hab : le a b = true) (hbc : le b c = true) :
    le a c = true := by
  rw [le_iff] at hab hbc ⊢
  rcases hab with hab | ⟨hab, hp⟩ <;> rcases hbc with hbc | ⟨hbc, hq⟩
  · exact .inl (by omega)
  · exact .inl (by omega)
  · exact .inl (by omega)
  · exact .inr ⟨by omega, Std.TransCmp.isLE_trans hp hq⟩

theorem le_total (a b : Sample) : (le a b || le b a) = true := by
  rw [Bool.or_eq_true, le_iff, le_iff]
  rcases Nat.lt_trichotomy a.level b.level with h | h | h
  · exact .inl (.inl h)
  · -- of two paths one does not come after the other
    cases hc : Path.compare a.path b.path with
    | lt => exact .inl (.inr ⟨h, rfl⟩)
    | eq => exact .inl (.inr ⟨h, rfl⟩)
    | gt =>
      have hlt : Path.compare b.path a.path = .lt := Std.OrientedCmp.gt_iff_lt.1 hc
      exact .inr (.inr ⟨h.symm, by rw [hlt]; rfl⟩)
  · exact .inr (.inl h)

theorem before_of_le (h : le a b = true) (hne : a.path.components ≠ b.path.components) :
    Before a b := by
  rcases le_iff.1 h with h | ⟨h, hle⟩
  · exact .inl h
  · refine .inr ⟨h, ?_⟩
    cases hc : Path.compare a.path b.path with
    | lt => rfl
    | eq => exact absurd (Path.compare_eq_iff.1 hc) hne
    | gt => rw [hc] at hle; cases hle

theorem path_of_sample {base : Path} {levels : Nat} {e : Path × UInt64}
    (h : ofEntry? base levels e = some a) : a.path = e.1 := by
  rw [ ofEntry?] at h
  split at h
  · split at h
    · cases h
      rfl
    · cases h
  · cases h

end Sample

/-! ### The samples of a table -/

namespace Samples

/-- No two entries of a table give samples of one path. -/
theorem components_ne (base : Path) (levels : Nat) (t : SizeTable) :
    (t.entries.filterMap (Sample.ofEntry? base levels)).Pairwise fun a b =>
      a.path.components ≠ b.path.components := by
  apply List.Pairwise.filterMap _ _ t.rising
  intro d e hlt a ha b hb heq
  rw [Sample.path_of_sample ha, Sample.path_of_sample hb] at heq
  rw [Path.compare_eq_iff.2 heq] at hlt
  cases hlt

/-- The samples of a table stand in strict order. -/
theorem inside_pairwise (base : Path) (levels : Nat) (t : SizeTable) :
    (ofTable base levels t).inside.Pairwise Sample.Before := by
  have hsorted := List.pairwise_mergeSort
    Sample.le_trans Sample.le_total
    (t.entries.filterMap (Sample.ofEntry? base.normalize levels))
  have hne := (List.mergeSort_perm _ Sample.le).symm.pairwise
    (components_ne base.normalize levels t) Ne.symm
  exact (hsorted.and hne).imp fun h => Sample.before_of_le h.1 h.2

theorem inside_perm (base : Path) (levels : Nat) (t : SizeTable) :
    (ofTable base levels t).inside.Perm
      (t.entries.filterMap (Sample.ofEntry? base.normalize levels)) :=
  List.mergeSort_perm _ Sample.le

end Samples

/-! ### The samples of a report -/

section Report

variable {base : Path} {rows : List Row} {levels : Nat}

/-- The sample of a directory of a report. -/
def Row.sample (base : Path) (d : List String × UInt64) : Sample :=
  ⟨base.below d.1, d.1.length, UInt64.ofNat (min (d.2.toNat * 1024) (UInt64.size - 1))⟩

/-- A directory is as many levels below the base as there are names to it. -/
theorem level?_below {names : List String} (hb : base.isAbsolute)
    (hn : ∀ n ∈ names, Path.IsName n) (hlen : names.length < UInt32.size) :
    Path.level? base.normalize (base.below names) = some names.length := by
  have hrest : Path.remainder? base.normalize.components (base.below names).components =
      some (names.map .name) := by
    rw [Path.remainder?_eq_some, Path.components_below hb hn]
  rw [Path.level?, hrest, Option.map_some, List.length_map]
  exact congrArg some (Nat.mod_eq_of_lt hlen)

/-- A directory has a sample if it is not too deep. -/
theorem ofEntry?_tableEntry (hb : base.isAbsolute) {d : List String × UInt64}
    (hn : ∀ n ∈ d.1, Path.IsName n) (hlen : d.1.length < UInt32.size) :
    Sample.ofEntry? base.normalize levels (Row.tableEntry base d) =
      if d.1.length ≤ levels then some (Row.sample base d) else none := by
  simp only [ Sample.ofEntry?, Row.tableEntry, level?_below hb hn hlen]
  rfl

theorem filterMap_samples (hb : base.isAbsolute) {ds : List (List String × UInt64)}
    (h : ∀ d ∈ ds, (∀ n ∈ d.1, Path.IsName n) ∧ d.1.length < UInt32.size) :
    (ds.map (Row.tableEntry base)).filterMap (Sample.ofEntry? base.normalize levels) =
      (ds.filter (·.1.length ≤ levels)).map (Row.sample base) := by
  induction ds with
  | nil => rfl
  | cons d ds ih =>
    obtain ⟨⟨hn, hlen⟩, htail⟩ := List.forall_mem_cons.1 h
    rw [List.map_cons, List.filterMap_cons, ofEntry?_tableEntry hb hn hlen, List.filter_cons]
    by_cases hle : d.1.length ≤ levels
    · simp [hle, ih htail]
    · simp [hle, ih htail]

theorem proper_of_mem (h : ∀ row ∈ rows, row.Proper base) {d : List String × UInt64}
    (hd : d ∈ directories rows) : (∀ n ∈ d.1, Path.IsName n) ∧ d.1.length < UInt32.size := by
  refine ⟨isName_of_mem h hd, ?_⟩
  obtain ⟨row, hrow, hdir⟩ := List.mem_filterMap.1 hd
  cases row with
  | entry names blocks slashes =>
    cases hdir
    exact (h _ hrow).2.1
  | blank space => cases hdir

/-- No entry of a report lies outside of its base. -/
theorem outside_eq_nil (hb : base.isAbsolute) (h : ∀ row ∈ rows, row.Proper base) {t : SizeTable}
    (ht : t.entries.Perm ((directories rows).map (Row.tableEntry base))) :
    (Samples.ofTable base levels t).outside = [] := by
  show (t.entries.filter fun e => (Path.level? base.normalize e.1).isNone).map (·.1) = []
  rw [List.map_eq_nil_iff, List.filter_eq_nil_iff]
  intro e he
  obtain ⟨d, hd, rfl⟩ := List.mem_map.1 (ht.subset he)
  obtain ⟨hn, hlen⟩ := proper_of_mem h hd
  rw [Row.tableEntry, level?_below hb hn hlen]
  exact Bool.false_ne_true

/-- For every absolute base and every report of different directories at or below
it, with blank rows and trailing separators anywhere: if it has any directory, it
is read, and down to any number of levels the samples are exactly the directories
that many names or fewer below the base, each with the number of its names as its
level and with its size in bytes, in strict order of level and path, and nothing
is found outside the base.  A report without directories gives nothing to read,
and one with the same directories in another order is read alike. -/
theorem depth_inclusive (levels : Nat) (hb : base.isAbsolute) (hbase : '\n' ∉ base.text.toList)
    (h : ∀ row ∈ rows, row.Proper base) (hd : ((directories rows).map Prod.fst).Nodup) :
    (directories rows = [] → SizeTable.ofReport (report base rows) = .error .noOutput) ∧
    (directories rows ≠ [] → ∃ t, SizeTable.ofReport (report base rows) = .ok t ∧
      (Samples.ofTable base levels t).inside.Perm
        (((directories rows).filter (·.1.length ≤ levels)).map fun d =>
          ⟨base.below d.1, d.1.length, UInt64.ofNat (min (d.2.toNat * 1024) (UInt64.size - 1))⟩) ∧
      (Samples.ofTable base levels t).inside.Pairwise Sample.Before ∧
      (Samples.ofTable base levels t).outside = []) ∧
    ∀ other : List Row, (∀ row ∈ other, row.Proper base) →
      (directories other).Perm (directories rows) →
      SizeTable.ofReport (report base other) = SizeTable.ofReport (report base rows) := by
  obtain ⟨hnone, hsome⟩ := ofReport_report hb hbase h hd
  refine ⟨hnone, fun hne => ?_, fun other ho hperm => ?_⟩
  · obtain ⟨t, hread, ht⟩ := hsome hne
    refine ⟨t, hread, ?_, Samples.inside_pairwise base levels t, outside_eq_nil hb h ht⟩
    have hpicked := ht.filterMap (Sample.ofEntry? base.normalize levels)
    rw [filterMap_samples hb fun d hdm => proper_of_mem h hdm] at hpicked
    exact (Samples.inside_perm base levels t).trans hpicked
  · have hd' : ((directories other).map Prod.fst).Nodup := (hperm.map Prod.fst).nodup_iff.2 hd
    obtain ⟨hnone', hsome'⟩ := ofReport_report hb hbase ho hd'
    by_cases hempty : directories rows = []
    · rw [hnone hempty, hnone' (List.perm_nil.1 (hempty ▸ hperm))]
    · obtain ⟨t, hread, ht⟩ := hsome hempty
      have hempty' : directories other ≠ [] := by
        intro he
        exact hempty (List.nil_perm.1 (he ▸ hperm))
      obtain ⟨u, hread', hu⟩ := hsome' hempty'
      -- the two tables have the same entries
      obtain rfl := PathTable.eq_of_perm (hu.trans ((hperm.map _).trans ht.symm))
      rw [hread, hread']

/-- A report below `/data//` with one directory a level deeper than asked for. -/
theorem depth_inclusive_of_data : ∃ t : SizeTable,
    SizeTable.ofReport (report ⟨"/data//"⟩ [.entry ["a"] 3 2, .blank [' ', '\t'],
      .entry ["a", "b"] 1 0, .entry [] 18014398509481984 1]) = .ok t ∧
    (Samples.ofTable ⟨"/data//"⟩ 1 t).inside.Perm
      [⟨⟨"/data/a"⟩, 1, 3072⟩, ⟨⟨"/data"⟩, 0, 18446744073709551615⟩] := by
  have hproper : ∀ row ∈ [Row.entry ["a"] 3 2, .blank [' ', '\t'], .entry ["a", "b"] 1 0,
      .entry [] 18014398509481984 1], row.Proper ⟨"/data//"⟩ := by decide
  obtain ⟨-, hsome, -⟩ := depth_inclusive 1 rfl (by decide) hproper (by decide)
  obtain ⟨t, hread, hin, -⟩ := hsome (List.cons_ne_nil _ _)
  refine ⟨t, hread, hin.trans (List.Perm.of_eq ?_)⟩
  decide +kernel

end Report

end Usage

end DiskWatch
