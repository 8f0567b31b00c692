/-
DiskWatch/Proofs/Periods.lean

The interval and the timeout of every target, whatever the document asks for.  Three
numbers of seconds go into them, each of which may be left out: the target's own
interval, its timeout, and the default interval of the document.

Without a timeout of its own a target gets half its interval, at most five minutes and
at least one second.  Intervals have at least one second too, so that is never more than
the interval (`Config.derivedTimeout_le`), and only a timeout that was asked for can
exceed it (`Scheduled.intervalShorter_iff`).  The targets that it exceeds are those that
are warned of at the start (`Collector.events_registerAll`).

Main result: `effective_periods`, for all the targets of any configuration.
-/
import DiskWatch.Config.Schema
import DiskWatch.Proofs.Registration
import Mathlib.Data.List.Forall2

namespace DiskWatch

/-! ### Periods that were asked for -/

/-- The interval and the timeout, in seconds, that the entry of a target asks for. -/
structure OwnPeriods where
  interval : Option UInt64
  timeout : Option UInt64
  deriving DecidableEq, Repr

/-- What the entries of a configuration ask for, in the order of its targets. -/
def Config.ownPeriods (c : Config) : List OwnPeriods :=
  c.filesystems.map (fun e => ⟨e.intervalSecs, e.timeoutSecs⟩) ++
    c.directories.map (fun e => ⟨e.intervalSecs, e.timeoutSecs⟩)

/-- The schedule of a target follows from what its entry asks for. -/
structure Scheduled (c : Config) (a : OwnPeriods) (t : Target) : Prop where
  interval : t.interval = c.interval a.interval
  timeout : t.timeout = Config.timeout a.timeout t.interval

theorem Config.scheduled (c : Config) : List.Forall₂ (Scheduled c) c.ownPeriods c.targets := by
  have hfs : List.Forall₂ (Scheduled c)
      (c.filesystems.map fun e => ⟨e.intervalSecs, e.timeoutSecs⟩)
      (c.filesystems.map c.filesystemTarget) := by
    rw [List.forall₂_map_left_iff, List.forall₂_map_right_iff, List.forall₂_same]
    exact fun e _ => ⟨rfl, rfl⟩
  have hdir : List.Forall₂ (Scheduled c)
      (c.directories.map fun e => ⟨e.intervalSecs, e.timeoutSecs⟩)
      (c.directories.map c.directoryTarget) := by
    rw [List.forall₂_map_left_iff, List.forall₂_map_right_iff, List.forall₂_same]
    exact fun e _ => ⟨rfl, rfl⟩
  exact List.rel_append hfs hdir

namespace Config

theorem nanos_minPeriod : minPeriod.nanos = nanosPerSecond := rfl

/-- The interval is the target's own or the default one, and at least a second. -/
theorem nanos_interval (c : Config) (secs : Option UInt64) : (c.interval secs).nanos =
    max nanosPerSecond ((secs.getD c.defaultIntervalSecs).toNat * nanosPerSecond) := by
  rw [interval, Duration.nanos_max, nanos_minPeriod]
  cases secs with
  | none =>
    rw [Option.map_none, Option.getD_none, defaultInterval, Duration.nanos_max, nanos_minPeriod,
      Duration.nanos_ofSecs, Option.getD_none]
    omega
  | some s =>
    rw [Option.map_some, Option.getD_some, Duration.nanos_ofSecs, Option.getD_some]
    exact Nat.max_comm _ _

theorem nanos_timeout_some (s : UInt64) (d : Duration) :
    (timeout (some s) d).nanos = max nanosPerSecond (s.toNat * nanosPerSecond) := by
  rw [timeout, Duration.nanos_max, nanos_minPeriod, Duration.nanos_ofSecs]
  exact Nat.max_comm _ _

theorem nanos_derivedTimeout (d : Duration) : (derivedTimeout d).nanos =
    max nanosPerSecond (min (d.nanos / 2) (300 * nanosPerSecond)) := by
  rw [derivedTimeout, Duration.nanos_max, Duration.nanos_min, Duration.nanos_half,
    nanos_minPeriod]
  exact Nat.max_comm _ _

end Config

namespace Scheduled

variable {c : Config} {a : OwnPeriods} {t : Target}

theorem second_le (h : Scheduled c a t) :
    nanosPerSecond ≤ t.interval.nanos ∧ nanosPerSecond ≤ t.timeout.nanos := by
  rw [h.timeout, h.interval]
  exact ⟨c.minPeriod_le_interval _, Config.minPeriod_le_timeout _ _⟩

/-- A derived timeout is half the interval, cut off at both ends, and fits into it. -/
theorem derived (h : Scheduled c a t) (ha : a.timeout = none) :
    t.timeout.nanos = max nanosPerSecond (min (t.interval.nanos / 2) (300 * nanosPerSecond)) ∧
      t.timeout.nanos ≤ 300 * nanosPerSecond ∧ t.timeout ≤ t.interval := by
  have htimeout : t.timeout = Config.derivedTimeout t.interval := by
    rw [h.timeout, ha, Config.timeout]
  have hnanos := Config.nanos_derivedTimeout t.interval
  rw [htimeout]
  refine ⟨hnanos, ?_, Config.derivedTimeout_le h.second_le.1⟩
  rw [hnanos]
  omega

theorem given (h : Scheduled c a t) {s : UInt64} (ha : a.timeout = some s) :
    t.timeout.nanos = max nanosPerSecond (s.toNat * nanosPerSecond) := by
  rw [h.timeout, ha, Config.nanos_timeout_some]

/-- Only a timeout that was asked for can exceed the interval. -/
theorem intervalShorter_iff (h : Scheduled c a t) : t.intervalShorter = true ↔
    ∃ s, a.timeout = some s ∧
      t.interval.nanos < max nanosPerSecond (s.toNat * nanosPerSecond) := by
  rw [Target.intervalShorter, decide_eq_true_eq, Duration.lt_def]
  cases ha : a.timeout with
  | none =>
    have hle := (h.derived ha).2.2
    rw [Duration.le_def] at hle
    simpa using hle
  | some s =>
    rw [h.given ha]
    simp

end Scheduled

/-! ### Warnings -/

/-- The warning about a target whose timeout exceeds its interval. -/
def Target.shortWarning (t : Target) : Event :=
  .intervalShort t.category t.name t.interval t.timeout

namespace Collector

theorem events_register (k : Collector) (t : Target) :
    (k.register t).telemetry.events =
      k.telemetry.events ++ ([t].filter Target.intervalShorter).map Target.shortWarning := by
  show (publishSchedule t k.telemetry).events = _
  rw [publishSchedule]
  cases h : t.intervalShorter with
  | true =>
    rw [if_pos rfl, List.filter_cons_of_pos h]
    rfl
  | false =>
    rw [if_neg Bool.false_ne_true, List.filter_cons_of_neg (by simp [h])]
    exact (List.append_nil _).symm

/-- Registering targets gives a warning for each whose timeout exceeds its interval, and
says in the end how many there are. -/
theorem events_registerAll (k : Collector) (ts : List Target) :
    (k.registerAll ts).telemetry.events =
      k.telemetry.events ++ (ts.filter Target.intervalShorter).map Target.shortWarning ++
        [.schedulerStarted ts.length] := by
  have hfold : (ts.foldl register k).telemetry.events =
      k.telemetry.events ++ (ts.filter Target.intervalShorter).map Target.shortWarning := by
    induction ts generalizing k with
    | nil => exact (List.append_nil _).symm
    | cons t ts ih =>
      rw [List.foldl_cons, ih, events_register, List.append_assoc, ← List.map_append,
        ← List.filter_append, List.singleton_append]
  show (ts.foldl register k).telemetry.events ++ [.schedulerStarted ts.length] = _
  rw [hfold]

end Collector

theorem World.events_startTimers (w : World) (ts : List Target) :
    (w.startTimers ts).collector.telemetry.events =
      w.collector.telemetry.events ++ (ts.filter Target.intervalShorter).map Target.shortWarning ++
        [.schedulerStarted ts.length] := by
  obtain ⟨-, hk⟩ := slots_foldl_timer ts (w.onCollector (·.registerAll ts))
  rw [startTimers, hk]
  exact Collector.events_registerAll w.collector ts

/-! ### The default interval -/

namespace Config

section Entries

variable {δ α : Type} {s : Section δ α} {entries more : List (String × Toml)} {draft final : δ}

/-- A first entry is read as the field of its name, and then the others. -/
theorem readEntries_cons {name : String} {v : Toml}
    (hread : s.readEntries ((name, v) :: more) draft = .ok final) :
    ∃ f next, f ∈ s.fields ∧ f.name = name ∧ f.read v draft = .ok next ∧
      s.readEntries more next = .ok final := by
  rw [Section.readEntries] at hread
  cases hfind : s.fields.find? (·.name == name) with
  | none => simp [hfind] at hread
  | some f =>
    have hname : f.name = name := by simpa using List.find?_some hfind
    cases hf : f.read v draft with
    | error complaint => simp [hfind, hf] at hread
    | ok next =>
      simp only [hfind, hf] at hread
      exact ⟨f, next, List.mem_of_find?_eq_some hfind, hname, hf, hread⟩

/-- What every entry keeps holds in the end. -/
theorem readEntries_keeps {P : δ → Prop} (hread : s.readEntries entries draft = .ok final)
    (hkeeps : ∀ e ∈ entries, ∀ f ∈ s.fields, f.name = e.1 → ∀ before after,
      f.read e.2 before = .ok after → P before → P after) (hP : P draft) : P final := by
  induction entries generalizing draft with
  | nil =>
    cases hread
    exact hP
  | cons e entries ih =>
    obtain ⟨f, next, hf, hname, hfield, hrest⟩ := readEntries_cons hread
    have hnext : P next := hkeeps e List.mem_cons_self f hf hname draft next hfield hP
    exact ih hrest (fun e he => hkeeps e (List.mem_cons_of_mem _ he)) hnext

/-- Some entries are read first, and then the others. -/
theorem readEntries_append (hread : s.readEntries (entries ++ more) draft = .ok final) :
    ∃ next, s.readEntries more next = .ok final := by
  induction entries generalizing draft with
  | nil => exact ⟨draft, hread⟩
  | cons e entries ih =>
    obtain ⟨f, next, -, -, -, hrest⟩ := readEntries_cons hread
    exact ih hrest

theorem field_read_eq_ok {β : Type} {name : String} {omittable : Bool} {d : Decoder β}
    {set : β → δ → δ} {v : Toml} {after : δ}
    (h : (Section.field name omittable d set).read v draft = .ok after) :
    ∃ b, d v = .ok b ∧ after = set b draft := by
  replace h : (d v).map (set · draft) = .ok after := h
  cases hd : d v with
  | error complaint => simp [hd, Except.map] at h
  | ok b =>
    simp only [hd, Except.map, Except.ok.injEq] at h
    exact ⟨b, rfl, h.symm⟩

end Entries

/-- The name under which a document gives the default interval. -/
def defaultField : String := "default_interval_secs"

/-- Only the field of the default interval sets it. -/
theorem defaultIntervalSecs_of_field {f : Field Config} (hf : f ∈ documentSection.fields)
    {v : Toml} {before after : Config} (hread : f.read v before = .ok after) :
    if f.name = defaultField then word v = .ok after.defaultIntervalSecs
    else after.defaultIntervalSecs = before.defaultIntervalSecs := by
  simp only [documentSection, List.mem_cons, List.not_mem_nil, or_false] at hf
  rcases hf with rfl | rfl | rfl | rfl | rfl | rfl | rfl | rfl
  · obtain ⟨n, hn, rfl⟩ := field_read_eq_ok hread
    exact hn
  all_goals
    obtain ⟨b, -, rfl⟩ := field_read_eq_ok hread
    rfl

/-- The default interval is the one that the document gives, if it gives one, and five
minutes if it does not. -/
theorem defaultIntervalSecs_of_read {c : Config} {entries : List (String × Toml)}
    (h : documentSection.read (.table entries) = .ok c) :
    (defaultField ∉ entries.map Prod.fst → c.defaultIntervalSecs = 300) ∧
    ∀ v, (defaultField, v) ∈ entries → (entries.map Prod.fst).Nodup →
      word v = .ok c.defaultIntervalSecs := by
  have hread : documentSection.readEntries entries standard = .ok c := by
    simp only [Section.read, bind, Except.bind] at h
    split at h
    · cases h
    · next hok => exact hok.trans h
  -- other entries leave the default interval alone
  have hkeeps : ∀ {n : UInt64} {es : List (String × Toml)}, defaultField ∉ es.map Prod.fst →
      ∀ e ∈ es, ∀ f ∈ documentSection.fields, f.name = e.1 → ∀ before after,
        f.read e.2 before = .ok after → before.defaultIntervalSecs = n →
          after.defaultIntervalSecs = n := by
    intro n es hes e he f hf hname before after hfield hn
    have hset := defaultIntervalSecs_of_field hf hfield
    have hne : f.name ≠ defaultField := by
      rw [hname]
      rintro heq
      exact hes (heq ▸ List.mem_map_of_mem he)
    rw [if_neg hne] at hset
    exact hset.trans hn
  constructor
  · intro habsent
    exact readEntries_keeps (P := (·.defaultIntervalSecs = 300)) hread (hkeeps habsent) rfl
  · intro v hv hnodup
    obtain ⟨first, more, rfl⟩ := List.append_of_mem hv
    obtain ⟨before, hfrom⟩ := readEntries_append hread
    obtain ⟨f, after, hf, hname, hfield, hrest⟩ := readEntries_cons hfrom
    have hset := defaultIntervalSecs_of_field hf hfield
    rw [if_pos hname] at hset
    have hmore : defaultField ∉ more.map Prod.fst := by
      rw [List.map_append, List.map_cons] at hnodup
      exact (List.nodup_cons.1 hnodup.of_append_right).1
    have hkept := readEntries_keeps (P := (·.defaultIntervalSecs = after.defaultIntervalSecs))
      hrest (hkeeps hmore) rfl
    rw [hset, hkept]

end Config

/-! ### All targets -/

/-- Whatever a configuration asks for, its targets are scheduled like this, one for each
entry:

* interval and timeout have at least one second;
* the interval is the entry's own, or else the default one, but at least a second;
* without a timeout of its own a target has half its interval, in whole nanoseconds, but
  at most five minutes and at least a second, and that is not more than the interval;
* with one it has that timeout, but at least a second;
* the timeout exceeds the interval if and only if the entry asks for one, and that, but
  at least a second, exceeds the interval.

A start warns of exactly the targets of the last kind, in their order.  A document that
gives no default interval has one of five minutes. -/
theorem effective_periods (c : Config) :
    List.Forall₂ (fun (a : OwnPeriods) (t : Target) =>
      (nanosPerSecond ≤ t.interval.nanos ∧ nanosPerSecond ≤ t.timeout.nanos) ∧
      t.interval.nanos = max nanosPerSecond
        ((a.interval.getD c.defaultIntervalSecs).toNat * nanosPerSecond) ∧
      (a.timeout = none →
        t.timeout.nanos =
          max nanosPerSecond (min (t.interval.nanos / 2) (300 * nanosPerSecond)) ∧
        t.timeout.nanos ≤ 300 * nanosPerSecond ∧ t.timeout ≤ t.interval) ∧
      (∀ s, a.timeout = some s →
        t.timeout.nanos = max nanosPerSecond (s.toNat * nanosPerSecond)) ∧
      (t.intervalShorter = true ↔ ∃ s, a.timeout = some s ∧
        t.interval.nanos < max nanosPerSecond (s.toNat * nanosPerSecond))) c.ownPeriods c.targets ∧
    (∀ w : World, (w.startTimers c.targets).collector.telemetry.events =
      w.collector.telemetry.events ++
        (c.targets.filter Target.intervalShorter).map Target.shortWarning ++
        [.schedulerStarted c.targets.length]) ∧
    ∀ entries, Config.documentSection.read (.table entries) = .ok c →
      (Config.defaultField ∉ entries.map Prod.fst → c.defaultIntervalSecs = 300) ∧
      ∀ v, (Config.defaultField, v) ∈ entries → (entries.map Prod.fst).Nodup →
        Config.word v = .ok c.defaultIntervalSecs := by
  refine ⟨c.scheduled.imp fun a t h => ⟨h.second_le, ?_, h.derived, fun s => h.given,
    h.intervalShorter_iff⟩, fun w => w.events_startTimers c.targets,
    fun entries => Config.defaultIntervalSecs_of_read⟩
  rw [h.interval, c.nanos_interval]

/-- Half of an odd interval, a timeout and an interval of no time, half of the greatest
interval, and a timeout just above the default interval. -/
def mixedPeriods : Config :=
  { Config.standard with
    filesystems := [⟨"odd", ⟨"/"⟩, "", some 3, none⟩, ⟨"least", ⟨"/"⟩, "", some 0, some 0⟩,
      ⟨"greatest", ⟨"/"⟩, "", some 18446744073709551615, none⟩]
    directories := [⟨"slow", ⟨"/srv"⟩, 0, none, some 301⟩] }

/-- Of these targets the last is the only one that is warned of. -/
theorem effective_periods_of_mixed :
    (∃ entries, Config.defaultField ∉ entries.map Prod.fst ∧
      Config.documentSection.read (.table entries) = .ok mixedPeriods) ∧
    mixedPeriods.defaultIntervalSecs = 300 ∧
    ∃ odd least greatest slow, mixedPeriods.targets = [odd, least, greatest, slow] ∧
      odd.timeout.nanos = 1500000000 ∧ least.timeout.nanos = 1000000000 ∧
      greatest.timeout.nanos = 300000000000 ∧ slow.interval.nanos = 300000000000 ∧
      odd.intervalShorter = false ∧ greatest.intervalShorter = false ∧
      slow.intervalShorter = true := by
  obtain ⟨hperiods, -, hdocument⟩ := effective_periods mixedPeriods
  let entries : List (String × Toml) :=
    [("filesystems", .array [
      .table [("name", .string "odd"), ("mount_point", .string "/"), ("interval_secs", .integer 3)],
      .table [("name", .string "least"), ("mount_point", .string "/"),
        ("interval_secs", .integer 0), ("timeout_secs", .integer 0)],
      .table [("name", .string "greatest"), ("mount_point", .string "/"),
        ("interval_secs", .integer 18446744073709551615)]]),
    ("directories", .array [
      .table [("name", .string "slow"), ("path", .string "/srv"), ("timeout_secs", .integer 301)]])]
  have hread : Config.documentSection.read (.table entries) = .ok mixedPeriods := rfl
  have habsent : Config.defaultField ∉ entries.map Prod.fst := by decide
  obtain ⟨⟨-, -, hodd, -, hoddShort⟩, hrest⟩ := List.forall₂_cons.1 hperiods
  obtain ⟨⟨-, -, -, hleast, -⟩, hrest⟩ := List.forall₂_cons.1 hrest
  obtain ⟨⟨-, -, hgreatest, -, hgreatestShort⟩, hrest⟩ := List.forall₂_cons.1 hrest
  obtain ⟨⟨-, hslow, -, -, hslowShort⟩, -⟩ := List.forall₂_cons.1 hrest
  refine ⟨⟨entries, habsent, hread⟩, (hdocument entries hread).1 habsent, _, _, _, _, rfl,
    (hodd rfl).1.trans (by decide), (hleast 0 rfl).trans (by decide),
    (hgreatest rfl).1.trans (by decide), hslow.trans (by decide), ?_, ?_, ?_⟩
  · rw [← Bool.not_eq_true, hoddShort]
    simp
  · rw [← Bool.not_eq_true, hgreatestShort]
    simp
  · exact hslowShort.2 ⟨301, rfl, by decide⟩

end DiskWatch
