/-
DiskWatch/Proofs/Registration.lean

From a configuration that is accepted to the targets that are looked after.  The check
goes through the names of each category one after another and stops at the first that
it has seen before, so what it accepts is a statement about all pairs
(`accepts_iff`).  Targets that differ in category or name have different
records, so registering them all adds one record for each that has none
(`ledger_foldl_register`), and there is one timer for each (`slots_foldl_timer`).

Main result: the check accepts exactly the well-formed configurations, and the start
then gives each target a record and a timer of its own (`accepted_and_registered`).
-/
import DiskWatch.Config.Load
import DiskWatch.Proofs.Records
import DiskWatch.World

namespace DiskWatch

/-! ### The records -/

namespace Ledger

variable {l : Ledger} {c : Category} {name other : String}

/-- Adding a target leaves the records of the others alone. -/
theorem item?_register_of_ne (l : Ledger) (c : Category) (h : other ≠ name) :
    (l.register c name).item? other = l.item? other := by
  rcases register_eq l c name with he | ⟨-, he⟩
  · rw [he]
  · have hnew : (Item.new c name).name ≠ other := Ne.symm h
    rw [he, item?, List.find?_append, List.find?_singleton, beq_false_of_ne hnew]
    exact Option.or_none

/-- The ledger with a new record for each of these names that has none. -/
def enrol (l : Ledger) (c : Category) (names : List String) : Ledger :=
  { l with items := l.items ++ (names.filter fun n => (l.item? n).isNone).map (.new c) }

theorem enrol_nil (l : Ledger) (c : Category) : l.enrol c [] = l := by
  simp [enrol]

/-- A name that comes once only may be enrolled before the others. -/
theorem enrol_cons {names : List String} (h : name ∉ names) :
    l.enrol c (name :: names) = (l.register c name).enrol c names := by
  have hothers : (names.filter fun n => ((l.register c name).item? n).isNone) =
      names.filter fun n => (l.item? n).isNone := by
    refine List.filter_congr fun n hn => ?_
    rw [item?_register_of_ne l c (ne_of_mem_of_not_mem hn h)]
  rw [enrol, enrol, hothers]
  rcases register_eq l c name with he | ⟨hi, he⟩
  · cases hi : l.item? name with
    | some i => rw [List.filter_cons_of_neg (by simp [hi]), he]
    | none =>
      -- a name without a record is given one
      have hthere := item?_register l c name
      rw [he, hi] at hthere
      cases hthere
  · rw [List.filter_cons_of_pos (by simp [hi]), he, List.map_cons, List.append_assoc,
      List.singleton_append]

end Ledger

/-- What tells the record of a target apart. -/
def Target.key (t : Target) : Category × String := (t.category, t.name)

/-- The names of the targets of a category. -/
def namesIn (c : Category) (ts : List Target) : List String :=
  (ts.filter (·.category = c)).map Target.name

namespace Collector

/-- Registering targets of which no two share a record adds one for each that has none. -/
theorem ledger_foldl_register {ts : List Target} (h : (ts.map Target.key).Nodup) (k : Collector)
    (c : Category) :
    (ts.foldl register k).ledgers.get c = (k.ledgers.get c).enrol c (namesIn c ts) := by
  induction ts generalizing k with
  | nil => exact (Ledger.enrol_nil _ c).symm
  | cons t ts ih =>
    rw [List.map_cons, List.nodup_cons] at h
    rw [List.foldl_cons, ih h.2]
    show ((k.ledgers.update t.category _).get c).enrol c _ = _
    by_cases hc : t.category = c
    · subst hc
      have hfresh : t.name ∉ namesIn t.category ts := by
        intro hmem
        obtain ⟨u, hu, hname⟩ := List.mem_map.1 hmem
        obtain ⟨hu, hcat⟩ := List.mem_filter.1 hu
        have hkey : u.key = t.key := Prod.ext (of_decide_eq_true hcat) hname
        exact h.1 (hkey ▸ List.mem_map_of_mem hu)
      have hnames : namesIn t.category (t :: ts) = t.name :: namesIn t.category ts := by
        rw [namesIn, List.filter_cons_of_pos (by simp), List.map_cons]
        rfl
      rw [PerCategory.get_update, hnames, Ledger.enrol_cons hfresh]
    · rw [PerCategory.get_update_of_ne _ _ (Ne.symm hc), namesIn, namesIn,
        List.filter_cons_of_neg (by simpa using hc)]

end Collector

/-! ### The timers -/

namespace World

/-- Starting timers adds a task for each target, in their order, and nothing else. -/
theorem slots_foldl_timer (ts : List Target) (w : World) :
    (ts.foldl (fun w t => w.spawn (.timer t none)) w).slots.map Slot.task =
        w.slots.map Slot.task ++ ts.map (Task.timer · none) ∧
      (ts.foldl (fun w t => w.spawn (.timer t none)) w).collector = w.collector := by
  induction ts generalizing w with
  | nil => exact ⟨(List.append_nil _).symm, rfl⟩
  | cons t ts ih =>
    obtain ⟨htasks, hk⟩ := ih (w.spawn (.timer t none))
    refine ⟨htasks.trans ?_, hk⟩
    rw [spawn, List.map_append, List.append_assoc]
    rfl

end World

/-! ### The check -/

/-- A text with a visible character. -/
theorem Text.allBlank_eq_false_iff {cs : List Char} :
    allBlank cs = false ↔ ∃ ch ∈ cs, isBlank ch = false := by
  rw [allBlank, List.all_eq_false]
  simp only [Bool.not_eq_true]

namespace Config

variable {c : Config}

theorem wellNamed_iff {ts : List (String × Path)} :
    WellNamed ts ↔ (∀ t ∈ ts, ∃ ch ∈ t.1.toList, Text.isBlank ch = false) ∧
      ts.Pairwise (fun t u => t.1 ≠ u.1) ∧ ∀ t ∈ ts, t.2.isAbsolute = true := by
  simp only [WellNamed, Text.allBlank_eq_false_iff, List.Nodup, List.pairwise_map]
  constructor
  · rintro ⟨hts, hnames⟩
    exact ⟨fun t ht => (hts t ht).1, hnames, fun t ht => (hts t ht).2⟩
  · rintro ⟨hseen, hnames, hpaths⟩
    exact ⟨fun t ht => ⟨hseen t ht, hpaths t ht⟩, hnames⟩

/-- What the check accepts, in terms of the characters of names and of pairs of names. -/
theorem accepts_iff (c : Config) :
    check c = .ok () ↔
      (c.filesystems ≠ [] ∨ c.directories ≠ []) ∧ 1 ≤ c.queueCapacity ∧
        1 ≤ c.retry.maxAttempts ∧ ∀ category,
          (∀ t ∈ c.named category, ∃ ch ∈ t.1.toList, Text.isBlank ch = false) ∧
          (c.named category).Pairwise (fun t u => t.1 ≠ u.1) ∧
          ∀ t ∈ c.named category, t.2.isAbsolute = true := by
  have hcapacity : c.queueCapacity ≠ 0 ↔ 1 ≤ c.queueCapacity := by
    rw [UInt64.le_iff_toNat_le, ne_eq, ← UInt64.toNat_inj]
    exact Nat.one_le_iff_ne_zero.symm
  have hattempts : c.retry.maxAttempts ≠ 0 ↔ 1 ≤ c.retry.maxAttempts := by
    rw [UInt32.le_iff_toNat_le, ne_eq, ← UInt32.toNat_inj]
    exact Nat.one_le_iff_ne_zero.symm
  rw [check_eq_ok_iff, hcapacity, hattempts]
  simp only [wellNamed_iff]

/-- The targets are those that were configured, each with its own name, path and labels. -/
theorem targets_eq (c : Config) :
    c.targets.map (fun t => (t.name, t.kind)) =
      c.filesystems.map (fun e => (e.name, .filesystem ⟨e.mountPoint, e.device⟩)) ++
        c.directories.map (fun e => (e.name, .directory ⟨e.path, e.levels⟩)) := by
  rw [targets, List.map_append, List.map_map, List.map_map]
  rfl

/-- The targets of an accepted configuration differ in category or name. -/
theorem keys_nodup (h : check c = .ok ()) : (c.targets.map Target.key).Nodup := by
  obtain ⟨-, -, -, hnamed⟩ := c.check_eq_ok_iff.1 h
  have hkeys : c.targets.map Target.key =
      (c.named .filesystem).map (fun t => (.filesystem, t.1)) ++
        (c.named .directory).map (fun t => (.directory, t.1)) := by
    rw [targets, named, named, List.map_append, List.map_map, List.map_map, List.map_map,
      List.map_map]
    rfl
  have hone : ∀ d, ((c.named d).map fun t => (d, t.1)).Nodup := by
    intro d
    have hpair := (hnamed d).2.map (f := Prod.mk d) fun a b he => (Prod.mk.inj he).2
    rwa [List.map_map] at hpair
  rw [hkeys]
  refine List.Nodup.append (hone _) (hone _) fun key hfs hdir => ?_
  -- a target of one category is none of the other
  obtain ⟨t, -, rfl⟩ := List.mem_map.1 hfs
  obtain ⟨u, -, he⟩ := List.mem_map.1 hdir
  cases (Prod.mk.inj he).1

/-- The check accepts a configuration if and only if it has a target, room for a job in
its queues and an attempt to make, and in each category every name has a visible
character, no two names are the same and every path is absolute.

The targets are the configured file systems and then the configured directories, in
their order.  In a configuration that is accepted they differ in category or name.  A
start of such targets adds one timer for each and, in whatever state the records are,
one record for each that has none, and it changes nothing else in them; where there
were no records there is then exactly one for each target. -/
theorem accepted_and_registered (c : Config) :
    (check c = .ok () ↔
      (c.filesystems ≠ [] ∨ c.directories ≠ []) ∧ 1 ≤ c.queueCapacity ∧
        1 ≤ c.retry.maxAttempts ∧ ∀ category,
          (∀ t ∈ c.named category, ∃ ch ∈ t.1.toList, Text.isBlank ch = false) ∧
          (c.named category).Pairwise (fun t u => t.1 ≠ u.1) ∧
          ∀ t ∈ c.named category, t.2.isAbsolute = true) ∧
    c.targets.map (fun t => (t.name, t.kind)) =
      c.filesystems.map (fun e => (e.name, .filesystem ⟨e.mountPoint, e.device⟩)) ++
        c.directories.map (fun e => (e.name, .directory ⟨e.path, e.levels⟩)) ∧
    (check c = .ok () →
      c.targets.Pairwise (fun t u => (t.category, t.name) ≠ (u.category, u.name)) ∧
      ∀ w : World,
        (w.startTimers c.targets).slots.map Slot.task =
          w.slots.map Slot.task ++ c.targets.map (Task.timer · none) ∧
        ∀ category,
          (w.startTimers c.targets).collector.ledgers.get category =
            (w.collector.ledgers.get category).enrol category (namesIn category c.targets) ∧
          (w.collector.ledgers.get category = .empty →
            ((w.startTimers c.targets).collector.ledgers.get category).items =
              (namesIn category c.targets).map (.new category))) := by
  refine ⟨accepts_iff c, targets_eq c, fun h => ⟨?_, fun w => ?_⟩⟩
  · have hkeys := keys_nodup h
    rwa [List.Nodup, List.pairwise_map] at hkeys
  · obtain ⟨htasks, hk⟩ :=
      World.slots_foldl_timer c.targets (w.onCollector (·.registerAll c.targets))
    refine ⟨htasks, fun category => ?_⟩
    have hledger : (w.startTimers c.targets).collector.ledgers.get category =
        (w.collector.ledgers.get category).enrol category (namesIn category c.targets) := by
      rw [World.startTimers, hk]
      exact Collector.ledger_foldl_register (keys_nodup h) w.collector category
    refine ⟨hledger, fun hempty => ?_⟩
    rw [hledger, hempty, Ledger.enrol]
    simp [Ledger.empty, Ledger.item?]

/-- Two file systems, and a directory under the name of one of them. -/
def namesakes : Config :=
  { standard with
    filesystems := [⟨"root", ⟨"/"⟩, "disk", none, none⟩, ⟨"data", ⟨"/data"⟩, "disk", none, none⟩]
    directories := [⟨"data", ⟨"/data"⟩, 2, some 60, none⟩] }

/-- The three targets of which two share a name get three timers and three records. -/
theorem accepted_and_registered_of_namesakes : check namesakes = .ok () ∧
    ∃ w w' : World, w' = w.startTimers namesakes.targets ∧
      w'.slots.map Slot.task = namesakes.targets.map (Task.timer · none) ∧
      w'.slots.length = 3 ∧
      (w'.collector.ledgers.get .filesystem).items =
        [.new .filesystem "root", .new .filesystem "data"] ∧
      (w'.collector.ledgers.get .directory).items = [.new .directory "data"] := by
  have hcheck : check namesakes = .ok () := by decide
  let settings : Settings :=
    { toRoutine := .standard
      surroundings := ⟨fun _ => .absent, fun _ => .zero, fun _ _ => .error .cancelled⟩
      stopwatch := fun _ => .zero
      cancelFirst := false }
  let w : World := .start settings (.start (.both ⟨1, [], true, 1⟩))
  obtain ⟨-, -, hstart⟩ := accepted_and_registered namesakes
  obtain ⟨htasks, hledgers⟩ := (hstart hcheck).2 w
  have hslots : ((w.startTimers namesakes.targets).slots.map Slot.task).length = 3 := by
    rw [htasks]
    rfl
  refine ⟨hcheck, w, _, rfl, htasks, ?_, ?_, ?_⟩
  · rwa [List.length_map] at hslots
  · exact (hledgers .filesystem).2 rfl
  · exact (hledgers .directory).2 rfl

end Config

end DiskWatch
