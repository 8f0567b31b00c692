/-
DiskWatch/Proofs/Publication.lean

What observers see of a job that has been processed.  A measurement is published as a
whole or not at all: the points of a file system are three, those of a directory are one
for each sample, and a failed measurement leaves all points of sizes as they were.  It is
always one of what the job measures (`events_publish`).

Points are written one after another, so of two with the same key only the last one
would stay.  The samples of a directory come from a table with one entry for each path,
and different paths have different texts, so no two of them share a point
(`texts_nodup`).

No step but the settling of a job writes such a point or counts a finished job
(`Step.sizes`, `Step.completed`); so it does not matter what else goes on until the job is settled.

Main result: `published_by_processing`.
-/
import DiskWatch.Proofs.Feed
import DiskWatch.Proofs.Processing
import DiskWatch.Proofs.Summary

namespace DiskWatch

/-! ### Points apart -/

/-- What observers tell a point apart by. -/
def Gauge.label (g : Gauge) : String × List (String × String) := (g.instrument, g.attributes)

theorem Text.showNat_injective : Function.Injective Text.showNat := fun _ _ h =>
  Text.decimal_injective (String.ofList_injective h)

/-- No two points of gauges look the same to observers. -/
theorem Gauge.label_injective : Function.Injective Gauge.label := by
  intro g g' h
  cases g <;> cases g' <;>
    simp_all [Gauge.label, Gauge.instrument, Gauge.attributes, Engine.name_inj,
      Text.showNat_injective.eq_iff]

/-- A point of what was measured, of a file system or a directory. -/
def Gauge.IsSize (g : Gauge) : Prop :=
  g.instrument ∈ ["duwatch.filesystem.size_bytes", "duwatch.filesystem.available_bytes",
    "duwatch.filesystem.used_ratio", "duwatch.directory.size_bytes"]

theorem Gauge.isSize_iff (g : Gauge) : g.IsSize ↔ match g with
    | .filesystemSize .. | .filesystemAvailable .. | .filesystemRatio .. | .directorySize .. => True
    | _ => False := by
  cases g <;> simp [IsSize, instrument]

/-- A point of the jobs that were completed. -/
def Counter.IsCompleted (key : Counter) : Prop := key.instrument = "duwatch.job.completed"

theorem Counter.isCompleted_iff (key : Counter) : key.IsCompleted ↔ match key with
    | .completed .. => True
    | _ => False := by
  cases key <;> simp [IsCompleted, instrument]

namespace Metrics

variable {m m' m'' : Metrics} {points : List (Gauge × Reading)} {g : Gauge}

/-- Sets points one after another. -/
def recordAll (m : Metrics) (points : List (Gauge × Reading)) : Metrics :=
  points.foldl (fun m point => m.record point.1 point.2) m

theorem reading?_recordAll_of_notMem (h : g ∉ points.map Prod.fst) :
    (m.recordAll points).reading? g = m.reading? g := by
  induction points generalizing m with
  | nil => rfl
  | cons point points ih =>
    rw [List.map_cons, List.mem_cons, not_or] at h
    exact (ih h.2).trans (reading?_record_of_ne m point.2 h.1)

/-- Where no two points are the same, each holds its value in the end. -/
theorem reading?_recordAll (h : (points.map Prod.fst).Nodup) :
    ∀ point ∈ points, (m.recordAll points).reading? point.1 = some point.2 := by
  induction points generalizing m with
  | nil => exact nofun
  | cons point points ih =>
    rw [List.map_cons, List.nodup_cons] at h
    intro other hother
    rcases List.mem_cons.1 hother with rfl | hother
    · exact (reading?_recordAll_of_notMem h.1).trans (reading?_record m other.1 other.2)
    · exact ih h.2 other hother

@[simp] theorem counted_recordAll (m : Metrics) (points : List (Gauge × Reading)) (key : Counter) :
    (m.recordAll points).counted key = m.counted key := by
  induction points generalizing m with
  | nil => rfl
  | cons point points ih => exact ih (m.record point.1 point.2)

/-- The points of sizes and of completed jobs are the same. -/
structure Alike (m m' : Metrics) : Prop where
  sizes : ∀ g : Gauge, g.IsSize → m'.reading? g = m.reading? g
  completed : ∀ key : Counter, key.IsCompleted → m'.counted key = m.counted key

theorem Alike.refl (m : Metrics) : m.Alike m := ⟨fun _ _ => rfl, fun _ _ => rfl⟩

theorem Alike.trans (h : m.Alike m') (h' : m'.Alike m'') : m.Alike m'' :=
  ⟨fun g hg => (h'.sizes g hg).trans (h.sizes g hg),
    fun key hkey => (h'.completed key hkey).trans (h.completed key hkey)⟩

/-- Of the points of sizes exactly these are set, each to its value, and no two of them
look the same to observers. -/
structure Sets (m m' : Metrics) (points : List (Gauge × Reading)) : Prop where
  apart : (points.map (·.1.label)).Nodup
  held : ∀ point ∈ points, m'.reading? point.1 = some point.2
  frame : ∀ g : Gauge, g.IsSize → g ∉ points.map Prod.fst → m'.reading? g = m.reading? g

end Metrics

/-! ### What a measurement comes to -/

namespace Measurement

open Usage (Sample Samples)

variable {policy : RetryPolicy} {timeout : Duration} {xs : List Exchange} {x : Measurement}

/-- The samples of a measurement; one of a file system has none. -/
def samples : Measurement → List Sample
  | .directory samples => samples
  | .filesystem _ => []

/-- A measurement of a file system that succeeds is one. -/
theorem exists_usage {fs : FilesystemJob}
    (h : (take policy (.filesystem fs) timeout).Trace xs (.ok x)) :
    ∃ usage, x = .filesystem usage := by
  obtain ⟨-, report, -, hreport⟩ := trace_measured h
  unfold ofReport at hreport
  dsimp only at hreport
  split at hreport
  · cases hreport
  · next blocks _ => exact ⟨.ofBlocks blocks, (Except.ok.inj hreport).symm⟩

/-- A measurement of a directory that succeeds has samples with different texts. -/
theorem exists_samples {dir : DirectoryJob}
    (h : (take policy (.directory dir) timeout).Trace xs (.ok x)) :
    ∃ samples, x = .directory samples ∧ (samples.map (·.path.text)).Nodup := by
  obtain ⟨-, report, -, hreport⟩ := trace_measured h
  obtain ⟨samples, rfl⟩ : ∃ samples, x = .directory samples := by
    unfold ofReport at hreport
    dsimp only at hreport
    split at hreport
    · cases hreport
    · split at hreport
      · cases hreport
      · next samples _ => exact ⟨samples, (Except.ok.inj hreport).symm⟩
  refine ⟨samples, rfl, ?_⟩
  obtain ⟨table, -, hsamples⟩ := ofReport_eq_ok_iff.1 hreport
  by_cases hlevels : dir.levels = 0
  · rw [hlevels] at hsamples
    obtain ⟨q, blocks, -, rfl⟩ := summary_eq_ok_iff.1 hsamples
    exact List.nodup_singleton _
  · -- each sample is an entry of a table, and of two entries the components differ
    rw [samples_of_depth hlevels hsamples]
    refine (List.Perm.nodup_iff ((Samples.inside_perm dir.path _ table).map _)).2 ?_
    refine List.Pairwise.map _ ?_ (Samples.components_ne dir.path.normalize _ table)
    intro a b hne heq
    exact hne (congrArg (fun text : String => Path.componentsOf text.toList) heq)

end Measurement

/-! ### What a job publishes -/

namespace Collector

variable {job : Job} {result : Except Error Measurement}

/-- The three points of a file system. -/
def filesystemPoints (target : String) (fs : FilesystemJob) (usage : Usage.Filesystem) :
    List (Gauge × Reading) :=
  [(.filesystemSize target fs.mountPoint.text fs.device, .whole usage.size.toNat),
    (.filesystemAvailable target fs.mountPoint.text fs.device, .whole usage.available.toNat),
    (.filesystemRatio target fs.mountPoint.text fs.device, .real usage.ratio)]

/-- The points of a directory, one for each sample. -/
def directoryPoints (target : String) (samples : List Usage.Sample) : List (Gauge × Reading) :=
  samples.map fun sample =>
    (.directorySize target sample.path.text sample.level, .whole sample.bytes.toNat)

/-- The points of a measurement of what the job measures. -/
def pointsOf (job : Job) (m : Measurement) : List (Gauge × Reading) :=
  match job.kind, m with
  | .filesystem fs, .filesystem usage => filesystemPoints job.target fs usage
  | .directory _, .directory samples => directoryPoints job.target samples
  | _, _ => []

theorem metrics_publish (job : Job) (t : Telemetry) (m : Measurement) :
    (publish job t m).metrics = t.metrics.recordAll (pointsOf job m) := by
  unfold publish pointsOf
  cases job.kind with
  | filesystem fs => cases m <;> rfl
  | directory dir =>
    cases m with
    | filesystem usage => rfl
    | directory samples =>
      -- one point for each sample
      dsimp only
      induction samples generalizing t with
      | nil => rfl
      | cons sample samples ih => exact ih _

/-- The measurement of a job is one of what the job measures, so it does not stay
unpublished. -/
theorem events_publish {policy : RetryPolicy} {xs : List Exchange} {m : Measurement}
    (h : (Measurement.take policy job.kind job.timeout).Trace xs (.ok m)) (t : Telemetry) :
    (publish job t m).events = t.events := by
  unfold publish
  cases hkind : job.kind with
  | filesystem fs =>
    rw [hkind] at h
    obtain ⟨usage, rfl⟩ := Measurement.exists_usage h
    rfl
  | directory dir =>
    rw [hkind] at h
    obtain ⟨samples, rfl, -⟩ := Measurement.exists_samples h
    clear h
    dsimp only
    induction samples generalizing t with
    | nil => rfl
    | cons sample samples ih => exact ih _

/-- The points of a result; a failed measurement has none. -/
def pointsOfResult (job : Job) : Except Error Measurement → List (Gauge × Reading)
  | .ok m => pointsOf job m
  | .error _ => []

theorem isSize_of_mem_points {g : Gauge} (h : g ∈ (pointsOfResult job result).map Prod.fst) :
    g.IsSize := by
  obtain ⟨point, hpoint, rfl⟩ := List.mem_map.1 h
  cases result with
  | error e => cases hpoint
  | ok m =>
    unfold pointsOfResult pointsOf at hpoint
    dsimp only at hpoint
    split at hpoint
    · simp only [filesystemPoints, List.mem_cons, List.not_mem_nil, or_false] at hpoint
      rcases hpoint with rfl | rfl | rfl <;> exact (Gauge.isSize_iff _).2 trivial
    · obtain ⟨sample, -, rfl⟩ := List.mem_map.1 hpoint
      exact (Gauge.isSize_iff _).2 trivial
    · cases hpoint

/-- What is told of a job when it is settled: its points, the count, and when it ended. -/
theorem metrics_settle (k : Collector) (job : Job) (span : Nat) (now : Instant)
    (result : Except Error Measurement) (duration : Duration) :
    (k.settle job span now result duration).telemetry.metrics =
      ((((k.telemetry.metrics.record (.active job.category) (.whole 0)).recordAll
        (pointsOfResult job result)).count
        (.completed job.category job.target (failureOf result))).record
        (.jobDuration job.category job.target) (.real duration.toSeconds)).record
        (.lastCollection job.category job.target) (.whole (now / nanosPerSecond)) := by
  have hslow : ∀ t : Telemetry, (if isSlow duration job.interval then
      t.log (.slowJob duration job.interval) else t).metrics = t.metrics := by
    intro t
    split <;> rfl
  unfold settle observe report
  dsimp only
  rw [hslow]
  cases result with
  | ok m => simp only [Telemetry.record, Telemetry.count, Telemetry.log, metrics_publish]; rfl
  | error e => rfl

/-- What observers see after a job has been processed with a result, next to what they saw
before. -/
structure Published (job : Job) (result : Except Error Measurement) (m m' : Metrics) : Prop where
  failed : ∀ e, result = .error e → m.Sets m' []
  filesystem : ∀ fs x, job.kind = .filesystem fs → result = .ok x → ∃ usage,
    x = .filesystem usage ∧ m.Sets m' (filesystemPoints job.target fs usage)
  directory : ∀ dir x, job.kind = .directory dir → result = .ok x → ∃ samples,
    x = .directory samples ∧ m.Sets m' (directoryPoints job.target samples)
  /-- One point of completed jobs grew by one. -/
  completed : ∃ key : Counter, key.instrument = "duwatch.job.completed" ∧
    key.attributes = [("category", job.category.name), ("target", job.target),
      ("result", (outcomeOf result).label), ("error_kind", (failureOf result).getD "none")] ∧
    m'.counted key = m.counted key + 1 ∧
    ∀ other : Counter, other.IsCompleted → other ≠ key → m'.counted other = m.counted other
  active : m'.reading? (.active job.category) = some (.whole 0)

variable {m m' m'' : Metrics}

/-- What is seen before and what was seen earlier are alike. -/
theorem Published.of_alike (h : Published job result m' m'') (ha : m.Alike m') :
    Published job result m m'' := by
  have hsets : ∀ {points}, m'.Sets m'' points → m.Sets m'' points := fun hs =>
    ⟨hs.apart, hs.held, fun g hg hmem => (hs.frame g hg hmem).trans (ha.sizes g hg)⟩
  obtain ⟨key, hinstrument, hattributes, hcounted, hothers⟩ := h.completed
  refine ⟨fun e he => hsets (h.failed e he), fun fs x hkind hx => ?_, fun dir x hkind hx => ?_,
    ⟨key, hinstrument, hattributes, ?_, fun other ho hne => ?_⟩, h.active⟩
  · obtain ⟨usage, hx, hs⟩ := h.filesystem fs x hkind hx
    exact ⟨usage, hx, hsets hs⟩
  · obtain ⟨samples, hx, hs⟩ := h.directory dir x hkind hx
    exact ⟨samples, hx, hsets hs⟩
  · rw [hcounted, ha.completed key hinstrument]
  · rw [hothers other ho hne, ha.completed other ho]

/-- Where no two points of a result are the same, settling a job sets exactly these. -/
theorem sets_settle (k : Collector) (job : Job) (span : Nat) (now : Instant)
    (duration : Duration) (h : ((pointsOfResult job result).map Prod.fst).Nodup) :
    k.telemetry.metrics.Sets (k.settle job span now result duration).telemetry.metrics
      (pointsOfResult job result) := by
  have hne : ∀ {g : Gauge}, g.IsSize → g ≠ .active job.category ∧
      g ≠ .jobDuration job.category job.target ∧ g ≠ .lastCollection job.category job.target := by
    intro g hg
    refine ⟨?_, ?_, ?_⟩ <;> rintro rfl <;> exact (Gauge.isSize_iff _).1 hg
  -- what is recorded besides is about the job
  have hread : ∀ {g : Gauge}, g.IsSize →
      (k.settle job span now result duration).telemetry.metrics.reading? g =
        ((k.telemetry.metrics.record (.active job.category) (.whole 0)).recordAll
          (pointsOfResult job result)).reading? g := by
    intro g hg
    rw [metrics_settle, Metrics.reading?_record_of_ne _ _ (hne hg).2.2,
      Metrics.reading?_record_of_ne _ _ (hne hg).2.1]
    rfl
  refine ⟨?_, fun point hpoint => ?_, fun g hg hmem => ?_⟩
  · have := h.map Gauge.label_injective
    rwa [List.map_map] at this
  · rw [hread (isSize_of_mem_points (List.mem_map_of_mem hpoint))]
    exact Metrics.reading?_recordAll h point hpoint
  · rw [hread hg, Metrics.reading?_recordAll_of_notMem hmem]
    exact Metrics.reading?_record_of_ne _ _ (hne hg).1

/-- Settling a job publishes whatever its measurement has come to. -/
theorem published_settle {policy : RetryPolicy} {xs : List Exchange}
    (h : (Measurement.take policy job.kind job.timeout).Trace xs result) (k : Collector)
    (span : Nat) (now : Instant) (duration : Duration) :
    Published job result k.telemetry.metrics
      (k.settle job span now result duration).telemetry.metrics := by
  refine ⟨?_, ?_, ?_, ⟨.completed job.category job.target (failureOf result), rfl, ?_, ?_, ?_⟩, ?_⟩
  · rintro e rfl
    exact sets_settle k job span now duration List.nodup_nil
  · rintro fs x hkind rfl
    rw [hkind] at h
    obtain ⟨usage, rfl⟩ := Measurement.exists_usage h
    have hpoints : pointsOfResult job (.ok (.filesystem usage)) =
        filesystemPoints job.target fs usage := by
      simp only [pointsOfResult, pointsOf, hkind]
    refine ⟨usage, rfl, hpoints ▸ sets_settle k job span now duration ?_⟩
    rw [hpoints]
    simp [filesystemPoints]
  · rintro dir x hkind rfl
    rw [hkind] at h
    obtain ⟨samples, rfl, hnodup⟩ := Measurement.exists_samples h
    have hpoints : pointsOfResult job (.ok (.directory samples)) =
        directoryPoints job.target samples := by
      simp only [pointsOfResult, pointsOf, hkind]
    refine ⟨samples, rfl, hpoints ▸ sets_settle k job span now duration ?_⟩
    rw [hpoints]
    -- points of different texts are different
    refine List.Nodup.of_map (fun g : Gauge => match g with
      | .directorySize _ path _ => path
      | _ => "") ?_
    rw [directoryPoints, List.map_map, List.map_map]
    exact hnodup
  · cases result <;> rfl
  · rw [metrics_settle]
    exact (Metrics.counted_count _ _).trans (congrArg (· + 1) (Metrics.counted_recordAll _ _ _))
  · intro other _ hne
    rw [metrics_settle]
    exact (Metrics.counted_count_of_ne _ hne).trans (Metrics.counted_recordAll _ _ _)
  · have hlast : Gauge.active job.category ≠ .lastCollection job.category job.target := nofun
    have hduration : Gauge.active job.category ≠ .jobDuration job.category job.target := nofun
    rw [metrics_settle, Metrics.reading?_record_of_ne _ _ hlast,
      Metrics.reading?_record_of_ne _ _ hduration]
    have hactive : .active job.category ∉ (pointsOfResult job result).map Prod.fst := fun hmem =>
      (Gauge.isSize_iff _).1 (isSize_of_mem_points hmem)
    exact (Metrics.reading?_recordAll_of_notMem hactive).trans (Metrics.reading?_record _ _ _)

end Collector

/-! ### Until a job is settled -/

/-- The points of the gauges. -/
def Telemetry.gauges (o : Telemetry) : List (Gauge × Reading) := o.metrics.gauges

/-- Recording something else than a size. -/
theorem Metrics.reading?_record_of_isSize (m : Metrics) {key g : Gauge} (value : Reading)
    (hkey : ¬ key.IsSize) (hg : g.IsSize) : (m.record key value).reading? g = m.reading? g := by
  apply reading?_record_of_ne
  rintro rfl
  exact hkey hg

namespace Collector

theorem gauges_concludeCycle (k : Collector) (cycle : Option Nat) (outcome : Outcome)
    (duration : Duration) :
    (k.concludeCycle cycle outcome duration).telemetry.gauges = k.telemetry.gauges := by
  cases cycle <;> rfl

theorem gauges_takeJob {k k' : Collector} {c : Category} {d : Delivery}
    (h : k.takeJob c = (d, k')) : k'.telemetry.gauges = k.telemetry.gauges := by
  obtain ⟨-, rfl⟩ := Prod.mk.inj h
  dsimp only [observe]
  split <;> rfl

theorem gauges_closeWatch (k : Collector) (id : JobId) (cycle : Option Nat) (v : Verdict)
    (elapsed : Duration) :
    (k.closeWatch id cycle v elapsed).telemetry.gauges = k.telemetry.gauges := by
  rw [closeWatch, gauges_concludeCycle]
  cases v with
  | timedOut =>
    show (publishTimeout (k.dispatch? id) id elapsed _).gauges = _
    cases k.dispatch? id <;> rfl
  | _ => rfl

/-- A target that is registered gets its interval and its timeout. -/
theorem metrics_register (k : Collector) (t : Target) :
    (k.register t).telemetry.metrics =
      (k.telemetry.metrics.record (.interval t.category t.name) (.real t.interval.toSeconds)).record
        (.timeout t.category t.name) (.real t.timeout.toSeconds) := by
  show (publishSchedule t k.telemetry).metrics = _
  unfold publishSchedule
  dsimp only
  split <;> rfl

/-- A job that is begun shows that its category is active. -/
theorem metrics_begin {k k' : Collector} {job : Job} {now : Instant} {span : Nat}
    (h : k.begin job now = (span, k')) :
    k'.telemetry.metrics = k.telemetry.metrics.record (.active job.category) (.whole 1) := by
  obtain rfl : (k.begin job now).2 = k' := by rw [h]
  show (Telemetry.metrics (ite _ _ _)).record (.active job.category) (.whole 1) = _
  split <;> rfl

end Collector

namespace Engine

variable {r : Routine} {s s' : Engine} {e : Act} {c : Category} {job other : Job}
  {acts : List Act}

/-- The points that observers see. -/
def metrics (s : Engine) : Metrics := s.collector.telemetry.metrics

/-- No step but the settling of a job sets a point of sizes. -/
theorem Step.sizes (h : Step r s e s') (he : ∀ d other, e ≠ .settle d other) {g : Gauge}
    (hg : g.IsSize) : s'.metrics.reading? g = s.metrics.reading? g := by
  have hsame : s'.collector.telemetry.gauges = s.collector.telemetry.gauges →
      s'.metrics.reading? g = s.metrics.reading? g := congrArg (List.lookup g)
  have hrecord : ∀ (m : Metrics) {key : Gauge} (value : Reading), ¬ key.IsSize →
      (m.record key value).reading? g = m.reading? g := fun m _ value hkey =>
    m.reading?_record_of_isSize value hkey hg
  cases h with
  | register t =>
    rw [metrics, Collector.metrics_register, hrecord _ _ (Gauge.isSize_iff _).1,
      hrecord _ _ (Gauge.isSize_iff _).1]
    rfl
  | begin _ hk =>
    rw [metrics, Collector.metrics_begin hk, hrecord _ _ (Gauge.isSize_iff _).1]
    rfl
  | settle => exact absurd rfl (he _ _)
  | recordDepth => exact hrecord _ _ (Gauge.isSize_iff _).1
  | countTasks =>
    exact (hrecord _ _ (Gauge.isSize_iff _).1).trans (hrecord _ _ (Gauge.isSize_iff _).1)
  | draw hk | reserve _ hk =>
    cases hk
    rfl
  | enqueue _ hk => exact hsame (congrArg (·.2.telemetry.gauges) hk).symm
  | skip | refuse | withdraw => exact hsame (Collector.gauges_concludeCycle _ _ _ _)
  | idle _ hk | take _ hk | finish _ hk _ =>
    have htake := Collector.gauges_takeJob hk
    exact hsame htake
  | @note _ _ _ n _ _ => cases n <;> rfl
  | close => exact hsame (Collector.gauges_closeWatch _ _ _ _ _)
  | _ => rfl

/-- No step but the settling of a job counts a completed one. -/
theorem Step.completed (h : Step r s e s') (he : ∀ d other, e ≠ .settle d other) {key : Counter}
    (hkey : key.IsCompleted) : s'.metrics.counted key = s.metrics.counted key := by
  obtain ⟨failure, hcounters⟩ := h.counters
  show (s'.counters.lookup key).getD 0 = (s.counters.lookup key).getD 0
  rw [hcounters]
  cases hpoint : e.point? failure s.collector.dispatch? with
  | none => rfl
  | some point =>
    have hne : key ≠ point := by
      rintro rfl
      cases e with
      | settle d other => exact he d other rfl
      | close job v _ =>
        cases v with
        | timedOut =>
          obtain ⟨d, -, rfl⟩ := Option.map_eq_some_iff.1 hpoint
          exact (Counter.isCompleted_iff _).1 hkey
        | _ => cases hpoint
      | skip | enqueue | withdraw | take =>
        obtain rfl := Option.some.inj hpoint
        exact (Counter.isCompleted_iff _).1 hkey
      | _ => cases hpoint
    exact congrArg (·.getD 0) (Metrics.lookup_change_of_ne 0 (· + 1) s.counters hne)

theorem alike_of_leads (hl : Leads (Step r) s acts s') (he : ∀ d other, .settle d other ∉ acts) :
    s.metrics.Alike s'.metrics := by
  induction hl with
  | refl => exact .refl _
  | @step acts s₁ s₂ e _ hs ih =>
    have hne : ∀ d other, e ≠ .settle d other := by
      rintro d other rfl
      exact he d other List.mem_cons_self
    exact (ih fun d other hmem => he d other (List.mem_cons_of_mem e hmem)).trans
      ⟨fun _ hg => hs.sizes hne hg, fun _ hkey => hs.completed hne hkey⟩

end Engine

/-- What a measurement notes is not among the points. -/
theorem Activity.run_metrics {α : Type} (c : Conditions) (x : Activity α) (p : Progress) :
    (run c x p).2.telemetry.metrics = p.telemetry.metrics := by
  induction x generalizing p with
  | done a => rfl
  | look path next ih => exact ih _ p
  | call k next ih => exact ih _ _
  | pause d next ih => exact ih _ _
  | note n next ih =>
    rw [run, ih]
    cases n <;> rfl

open World in
/-- Measurements are published as a whole or not at all.  For every job and every set of
points that was there before, and whatever becomes of the measurement:

* if it fails, no point of sizes changes;
* if a file system is measured, exactly its three points get the new values;
* if a directory is measured, exactly one point for each sample gets the bytes of the
  sample, and no two samples share a point;
* in every case one point of completed jobs grows by one, which has the result and the
  kind of the error as its attributes, and the category is shown as not active.

This holds in a world without other tasks, where the processing ends and is reported, and
of the step that settles the job among any other tasks, next to what observers saw before
that step, and also next to what they saw before the job was begun if no other job was
settled since. -/
theorem published_by_processing (policy : RetryPolicy) (job : Job) :
    (∀ w : World, w.slots = [] → w.ready = [] → ∃ w' report,
      w.EndsIn policy job w' ∧ w'.reports = w.reports ++ [report] ∧ report.job = job ∧
      report.result = (w.measured policy job).1 ∧
      Collector.Published job report.result w.collector.telemetry.metrics
        w'.collector.telemetry.metrics) ∧
    ∀ (r : Routine) (c : Category) (s s₁ s' : Engine) (acts : List Engine.Act),
      s.worker c = .holding job → Leads (Engine.Step r) s acts s₁ →
      (∀ other, .settle c other ∉ acts) → Engine.Step r s₁ (.settle c job) s' →
      ∃ xs result span now duration,
        (Measurement.take r.policy job.kind job.timeout).Trace xs result ∧
        s'.collector = s₁.collector.settle job span now result duration ∧
        Collector.Published job result s₁.metrics s'.metrics ∧
        ((∀ d other, .settle d other ∉ acts) →
          Collector.Published job result s.metrics s'.metrics) := by
  constructor
  · intro w hs hr
    obtain ⟨w', hends, hend⟩ := process_ends w policy job hs hr
    obtain ⟨xs, hxs⟩ := w.trace_measured policy job
    refine ⟨w', _, hends, hend.reports, rfl, rfl, ?_⟩
    rw [hend.collector]
    refine (Collector.published_settle hxs _ _ _ _).of_alike ?_
    -- beginning and measuring the job set no other point than that of its category
    have hbegun : (w.measured policy job).2.telemetry.metrics =
        w.collector.telemetry.metrics.record (.active job.category) (.whole 1) :=
      (Activity.run_metrics _ _ _).trans (Collector.metrics_begin rfl)
    dsimp only
    rw [hbegun]
    exact ⟨fun g hg => Metrics.reading?_record_of_isSize _ _ (Gauge.isSize_iff _).1 hg,
      fun _ _ => rfl⟩
  · intro r c s s₁ s' acts hw hl he hs
    have hunderway := Engine.underway_of_leads hl hw he
    obtain ⟨-, xs, result, span, now, duration, hxs, hsettle⟩ :=
      Engine.settle_of_underway hunderway hs
    have hpublished : Collector.Published job result s₁.metrics s'.metrics := by
      rw [Engine.metrics, Engine.metrics, hsettle]
      exact Collector.published_settle hxs s₁.collector span now duration
    exact ⟨xs, result, span, now, duration, hxs, hsettle, hpublished, fun hnone =>
      hpublished.of_alike (Engine.alike_of_leads hl hnone)⟩

/-- A summary of a directory is measured; a point of its subdirectory that an earlier
measurement has left stays as it was. -/
theorem published_by_processing_of_data : ∃ w w' : World, ∃ job report,
    w.EndsIn .standard job w' ∧ w'.reports = [report] ∧ report.job = job ∧
    w.collector.telemetry.metrics.reading? (.directorySize "data" "/data/a" 1) =
      some (.whole 7) ∧
    w'.collector.telemetry.metrics.reading? (.directorySize "data" "/data/a" 1) =
      some (.whole 7) ∧
    w'.collector.telemetry.metrics.reading? (.directorySize "data" "/data" 0) =
      some (.whole 5120) := by
  let dir : DirectoryJob := ⟨⟨"/data"⟩, 0⟩
  let job : Job := ⟨⟨"a"⟩, "data", .directory dir, .ofSecs 10, .ofSecs 60, none, .shutdown⟩
  let settings : Settings :=
    { Routine.standard with
      surroundings := ⟨fun _ => .present, fun _ => .zero, fun _ _ => .ok "5\t/data\n"⟩
      stopwatch := fun _ => .ofSecs 1
      cancelFirst := false }
  let w := World.start settings
    { Collector.start (.both ⟨1, [], true, 1⟩) with
      telemetry := Telemetry.empty.record (.directorySize "data" "/data/a" 1) (.whole 7) }
  obtain ⟨halone, -⟩ := published_by_processing .standard job
  obtain ⟨w', report, hends, hreports, hjob, hresult, hpublished⟩ := halone w rfl rfl
  have hmeasured : (w.measured .standard job).1.toOption.map Measurement.samples =
      some [⟨⟨"/data"⟩, 0, 5120⟩] := by decide +kernel
  rw [← hresult] at hmeasured
  cases hx : report.result with
  | error e =>
    rw [hx] at hmeasured
    cases hmeasured
  | ok x =>
    obtain ⟨samples, rfl, hsets⟩ := hpublished.directory dir x rfl hx
    rw [hx] at hmeasured
    obtain rfl : samples = [⟨⟨"/data"⟩, 0, 5120⟩] := Option.some.inj hmeasured
    refine ⟨w, w', job, report, hends, hreports, hjob, rfl, ?_, ?_⟩
    · rw [hsets.frame _ ((Gauge.isSize_iff _).2 trivial) (by decide)]
      rfl
    · exact hsets.held (_, _) List.mem_cons_self

end DiskWatch
