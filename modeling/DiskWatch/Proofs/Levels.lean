/-
DiskWatch/Proofs/Levels.lean

The samples of a base from any table of paths, spelled in whatever way, at or below the
base or outside of it.

Whether an entry lies at or below the base is decided by its components: those of the base
without its trailing separators must be the first ones, and the level counts the others
(`level?_eq`).  So the entries fall into those with a sample, as far as they are not too
deep, and those outside, each of which is warned of once (`noteOutside_iff`); a reading
down to some level has these warnings and comes to these samples (`trace_readDirectory_iff`).

The samples are in strict order, and two lists in strict order with the same samples are
one list.  The levels come one after another in it, so going down further only makes it
longer (`inside_prefix`).
-/
import DiskWatch.Proofs.Depth
import DiskWatch.Proofs.Exchanges
import Mathlib.Data.List.Basic

namespace DiskWatch.Usage

open Measurement (noteOutside)

variable {base p : Path} {levels more : Nat} {t : SizeTable} {e : Path × UInt64}

/-! ### Entries below a base -/

/-- The level of a path of less than 2^32 components. -/
theorem level?_eq (base : Path) (hshort : p.components.length < UInt32.size) :
    Path.level? base p = if base.components <+: p.components then
      some (p.components.length - base.components.length) else none := by
  rw [Path.level?]
  split
  · next h =>
    obtain ⟨rest, hrest⟩ := h
    have hlen : rest.length < UInt32.size := by
      rw [← hrest, List.length_append] at hshort
      omega
    rw [Path.remainder?_eq_some.2 hrest.symm, Option.map_some, Nat.mod_eq_of_lt hlen, ← hrest,
      List.length_append, Nat.add_sub_cancel_left]
  · next h =>
    rw [Option.map_eq_none_iff, Option.eq_none_iff_forall_ne_some]
    intro rest hsome
    exact h ⟨rest, (Path.remainder?_eq_some.1 hsome).symm⟩

/-- An entry lies at most so many levels below a path. -/
def Within (stem : Path) (levels : Nat) (e : Path × UInt64) : Prop :=
  stem.components <+: e.1.components ∧
    e.1.components.length ≤ stem.components.length + levels

instance (stem : Path) (levels : Nat) (e : Path × UInt64) : Decidable (Within stem levels e) :=
  inferInstanceAs (Decidable (_ ∧ _))

/-- The sample of an entry below a path. -/
def sampleOf (stem : Path) (e : Path × UInt64) : Sample :=
  ⟨e.1, e.1.components.length - stem.components.length,
    UInt64.ofNat (min (e.2.toNat * 1024) (UInt64.size - 1))⟩

theorem ofEntry?_eq (stem : Path) (levels : Nat)
    (hshort : e.1.components.length < UInt32.size) : Sample.ofEntry? stem levels e =
      if Within stem levels e then some (sampleOf stem e) else none := by
  rw [Sample.ofEntry?, level?_eq stem hshort]
  by_cases h : stem.components <+: e.1.components
  · have hle := h.length_le
    have hlevel : e.1.components.length - stem.components.length ≤ levels ↔
        Within stem levels e := by
      rw [Within, and_iff_right h]
      omega
    simp only [if_pos h, hlevel]
    rfl
  · rw [if_neg h, if_neg fun hin => h hin.1]

/-- The samples of a table are those of its entries that are not too deep. -/
theorem inside_perm_sampleOf (base : Path) (levels : Nat)
    (hshort : ∀ e ∈ t.entries, e.1.components.length < UInt32.size) :
    (Samples.ofTable base levels t).inside.Perm
      ((t.entries.filter fun e => Within base.normalize levels e).map
        (sampleOf base.normalize)) := by
  have hpicked : t.entries.filterMap (Sample.ofEntry? base.normalize levels) =
      (t.entries.filter fun e => Within base.normalize levels e).map
        (sampleOf base.normalize) := by
    rw [← List.filterMap_eq_map, List.filterMap_filter]
    apply List.filterMap_congr
    intro e he
    rw [ofEntry?_eq _ _ (hshort e he)]
    simp
  rw [← hpicked]
  exact Samples.inside_perm base levels t

/-! ### More levels -/

theorem Sample.Before.asymm {a b : Sample} (h : a.Before b) : ¬ b.Before a := by
  intro hba
  rcases h with h | ⟨h, hp⟩ <;> rcases hba with hba | ⟨hba, hq⟩
  · omega
  · omega
  · omega
  · exact Std.OrientedCmp.not_lt_of_lt hp hq

theorem ofEntry?_eq_filter (stem : Path) (hle : levels ≤ more) (e : Path × UInt64) :
    Sample.ofEntry? stem levels e = (Sample.ofEntry? stem more e).filter (·.level ≤ levels) := by
  simp only [Sample.ofEntry?]
  cases Path.level? stem e.1 with
  | none => rfl
  | some level =>
    dsimp only
    by_cases hlevel : level ≤ levels
    · rw [if_pos hlevel, if_pos (Nat.le_trans hlevel hle), Option.filter_some_pos]
      exact decide_eq_true hlevel
    · rw [if_neg hlevel]
      split
      · rw [Option.filter_some_neg]
        simpa using hlevel
      · rfl

/-- The samples down to some level are among those down to a deeper one. -/
theorem inside_eq_filter (base : Path) (t : SizeTable) (hle : levels ≤ more) :
    (Samples.ofTable base levels t).inside =
      (Samples.ofTable base more t).inside.filter (·.level ≤ levels) := by
  -- both sides have the same samples, in the same strict order
  apply List.Perm.eq_of_pairwise (fun a b _ _ hab hba => absurd hba hab.asymm)
    (Samples.inside_pairwise base levels t) ((Samples.inside_pairwise base more t).filter _)
  have hpicked : t.entries.filterMap (Sample.ofEntry? base.normalize levels) =
      (t.entries.filterMap (Sample.ofEntry? base.normalize more)).filter (·.level ≤ levels) := by
    rw [List.filter_filterMap]
    exact List.filterMap_congr fun e _ => ofEntry?_eq_filter _ hle e
  exact ((Samples.inside_perm base levels t).trans (.of_eq hpicked)).trans
    ((Samples.inside_perm base more t).filter _).symm

/-- In strict order, the samples that are not too deep come first. -/
theorem filter_level_prefix {l : List Sample} (h : l.Pairwise Sample.Before) (levels : Nat) :
    l.filter (·.level ≤ levels) <+: l := by
  induction l with
  | nil => exact List.prefix_refl []
  | cons a l ih =>
    obtain ⟨ha, hl⟩ := List.pairwise_cons.1 h
    by_cases hlevel : a.level ≤ levels
    · rw [List.filter_cons_of_pos (by simpa using hlevel)]
      exact (List.prefix_cons_inj a).2 (ih hl)
    · -- all that follows is as deep
      have hnone : l.filter (·.level ≤ levels) = [] := by
        rw [List.filter_eq_nil_iff]
        intro b hb
        have hab : a.level ≤ b.level := by
          rcases ha b hb with h | ⟨h, -⟩ <;> omega
        simp
        omega
      rw [List.filter_cons_of_neg (by simpa using hlevel), hnone]
      exact List.nil_prefix

/-- Going down further adds samples at the end. -/
theorem inside_prefix (base : Path) (t : SizeTable) (hle : levels ≤ more) :
    (Samples.ofTable base levels t).inside <+: (Samples.ofTable base more t).inside := by
  rw [inside_eq_filter base t hle]
  exact filter_level_prefix (Samples.inside_pairwise base more t) levels

/-! ### Entries outside of a base -/

/-- The entries outside of a path. -/
def outsideOf (stem : Path) (t : SizeTable) : List (Path × UInt64) :=
  t.entries.filter fun e => ¬ stem.components <+: e.1.components

/-- The warning about an entry outside of a base. -/
def warning (base : Path) (e : Path × UInt64) : Exchange :=
  .note (.event (.outsideTarget base.normalize e.1))

theorem outside_eq (base : Path) (levels : Nat)
    (hshort : ∀ e ∈ t.entries, e.1.components.length < UInt32.size) :
    (Samples.ofTable base levels t).outside = (outsideOf base.normalize t).map (·.1) := by
  show (t.entries.filter fun e => (Path.level? base.normalize e.1).isNone).map (·.1) = _
  apply congrArg
  apply List.filter_congr
  intro e he
  rw [level?_eq _ (hshort e he)]
  by_cases h : base.normalize.components <+: e.1.components
  · simp [h]
  · simp [h]

theorem noteOutside_iff {α : Type} {paths : List Path} {next : Activity α} {xs : List Exchange}
    {a : α} : (noteOutside base paths next).Trace xs a ↔
      ∃ ys, xs = paths.map (fun p => .note (.event (.outsideTarget base.normalize p))) ++ ys ∧
        next.Trace ys a := by
  induction paths generalizing xs with
  | nil => simp [noteOutside]
  | cons path paths ih =>
    show (Activity.note _ (noteOutside base paths next)).Trace xs a ↔ _
    rw [Activity.Trace.note_iff]
    simp only [ih]
    constructor
    · rintro ⟨_, rfl, ys, rfl, h⟩
      exact ⟨ys, rfl, h⟩
    · rintro ⟨ys, rfl, h⟩
      exact ⟨_, rfl, ys, rfl, h⟩

/-- A report is read down to some level with one note of its own, then the warnings, and the
samples as the result if there are any. -/
theorem trace_readDirectory_iff {job : DirectoryJob} {report : String} {xs : List Exchange}
    {result : Except Error Measurement} (hread : SizeTable.ofReport report = .ok t)
    (hlevels : job.levels ≠ 0)
    (hshort : ∀ e ∈ t.entries, e.1.components.length < UInt32.size) :
    (Measurement.readDirectory job report).Trace xs result ↔
      xs = .note (.parsed .du (Text.visibleLines report.toList).length (some t.size)) ::
        (outsideOf job.path.normalize t).map (warning job.path) ∧
      result = match (Samples.ofTable job.path job.levels.toNat t).inside with
        | [] => .error (.badReport .du (.nothingUnder job.path))
        | samples => .ok (.directory samples) := by
  rw [SizeTable.ofReport] at hread
  rw [Measurement.readDirectory]
  simp only [hread, Directory.samples, if_neg hlevels, Activity.Trace.note_iff, noteOutside_iff,
    Activity.Trace.done_iff, outside_eq job.path _ hshort, List.map_map]
  generalize (Samples.ofTable job.path job.levels.toNat t).inside = samples
  constructor
  · rintro ⟨_, rfl, _, rfl, rfl, rfl⟩
    exact ⟨by rw [List.append_nil]; rfl, by cases samples <;> rfl⟩
  · rintro ⟨rfl, rfl⟩
    exact ⟨_, rfl, [], (List.append_nil _).symm, rfl, by cases samples <;> rfl⟩

/-! ### All entries -/

/-- From a table of any paths of less than 2^32 components, down to any number of levels
below any base:

* the samples are exactly the entries whose components start with those of the base
  without its trailing separators and go on with no more than that many others, one sample
  for each of them, with the number of the others as its level and with its size in bytes,
  and they stand in strict order;
* all entries whose components do not start so are outside, and each of them is noted
  once, as a warning, before anything else goes on;
* down to more levels, the samples of these levels are the same, and stand first. -/
theorem levels_exact (base : Path) (levels : Nat) (t : SizeTable)
    (hshort : ∀ e ∈ t.entries, e.1.components.length < UInt32.size) :
    let stem := base.normalize
    let s := Samples.ofTable base levels t
    (s.inside.Perm ((t.entries.filter fun e => stem.components <+: e.1.components ∧
        e.1.components.length ≤ stem.components.length + levels).map fun e =>
      ⟨e.1, e.1.components.length - stem.components.length,
        UInt64.ofNat (min (e.2.toNat * 1024) (UInt64.size - 1))⟩) ∧
      s.inside.Pairwise Sample.Before) ∧
    (s.outside = (outsideOf stem t).map (·.1) ∧
      (∀ {α : Type} (next : Activity α) xs a, (noteOutside base s.outside next).Trace xs a ↔
        ∃ ys, xs = (outsideOf stem t).map (warning base) ++ ys ∧ next.Trace ys a) ∧
      ∀ path, (Event.outsideTarget stem path).level = .warn) ∧
    ∀ more, levels ≤ more →
      s.inside = (Samples.ofTable base more t).inside.filter (·.level ≤ levels) ∧
      s.inside <+: (Samples.ofTable base more t).inside := by
  intro stem s
  have houtside : s.outside = (outsideOf stem t).map (·.1) := outside_eq base levels hshort
  refine ⟨⟨inside_perm_sampleOf base levels hshort, Samples.inside_pairwise base levels t⟩,
    ⟨houtside, fun next xs a => ?_, fun path => rfl⟩, fun more hle => ?_⟩
  · rw [houtside, noteOutside_iff, List.map_map]
    rfl
  · exact ⟨inside_eq_filter base t hle, inside_prefix base t hle⟩

/-- A base with a sibling whose text starts alike, and with entries at three levels, one of
them in two spellings. -/
theorem levels_exact_of_sibling :
    let t : SizeTable := .ofList [(⟨"/data2/a"⟩, 1), (⟨"/data//b/c"⟩, 2), (⟨"/data/a/"⟩, 3),
      (⟨"/data"⟩, 18014398509481984), (⟨"/data/./a"⟩, 4)]
    (∀ e ∈ t.entries, e.1.components.length < UInt32.size) ∧
    (Samples.ofTable ⟨"/data//"⟩ 1 t).inside.Perm
      [⟨⟨"/data"⟩, 0, 18446744073709551615⟩, ⟨⟨"/data/./a"⟩, 1, 4096⟩] ∧
    (Samples.ofTable ⟨"/data//"⟩ 1 t).outside = [⟨"/data2/a"⟩] ∧
    (Samples.ofTable ⟨"/data//"⟩ 1 t).inside <+: (Samples.ofTable ⟨"/data//"⟩ 2 t).inside := by
  intro t
  have hshort : ∀ e ∈ t.entries, e.1.components.length < UInt32.size := by decide +kernel
  obtain ⟨⟨hin, -⟩, ⟨hout, -⟩, hmore⟩ := levels_exact ⟨"/data//"⟩ 1 t hshort
  refine ⟨hshort, hin.trans (.of_eq ?_), hout.trans ?_, (hmore 2 (by decide)).2⟩
  · decide +kernel
  · decide +kernel

end DiskWatch.Usage
