/-
DiskWatch/Proofs/Clearance.lean

What a job leaves behind in the bookkeeping once it has been processed.  Whatever became of
the measurement, and whoever the target was marked with before, its record is idle and
counts one more run, the category points at no job, and everything else is as it was.

The step that begins a job marks its target, and the one that settles it looks for the
record that is marked.  In between nothing else may write into the ledgers; then, if the
identifier was recorded nowhere but at the target, the record that is found is the one that
was marked (`settled_of_start`).  Of the steps of other tasks, that is all that is asked.

Main result: `settled_by_processing`.
-/
import DiskWatch.Proofs.Bookkeeping
import DiskWatch.Proofs.Processing

namespace DiskWatch

/-! ### Ledgers -/

namespace Ledger

variable {l : Ledger} {job : Job}

/-- The category does not point at the job, and no record but that of the target names it. -/
structure RecordedAtMost (l : Ledger) (name : String) (id : JobId) : Prop where
  pointer : ∀ running, l.running = some running → running.id ≠ id
  records : ∀ i ∈ l.items, i.name ≠ name → i.job ≠ some id

/-- A ledger before a job was begun and after it was settled. -/
structure Settled (job : Job) (duration : Duration) (l l' : Ledger) : Prop where
  registered : ∀ i, l.item? job.target = some i → ∃ start stop : Instant,
    l'.item? job.target = some { i with
      running := false, job := none, lastStart := some start, lastEnd := some stop,
      lastDuration := some duration, completedRuns := i.completedRuns + 1 } ∧
    l'.running = none
  unregistered : l.item? job.target = none → l' = l
  others : ∀ name, name ≠ job.target → l'.item? name = l.item? name
  names : l'.items.map Item.name = l.items.map Item.name
  depth : l'.depth = l.depth

/-- A job that a worker has started is marked at its target and nowhere else. -/
theorem jobOf?_start_iff (ho : l.RecordedAtMost job.target job.id)
    (hreg : (l.item? job.target).isSome) (now : Instant) (name : String) :
    (l.start job now).2.jobOf? name = some job.id ↔ name = job.target := by
  have hstart : (l.start job now).2.jobOf? =
      Function.update l.jobOf? job.target (some job.id) := by
    rw [start, if_pos hreg]
    exact jobOf?_changeItem (f := .begin job.id now) hreg (fun _ => rfl) fun _ => rfl
  rw [hstart]
  by_cases hname : name = job.target
  · subst hname
    simp
  · rw [Function.update_of_ne hname]
    refine iff_of_false (fun hj => ?_) hname
    obtain ⟨i, hi, hmark⟩ := Option.bind_eq_some_iff.1 hj
    obtain ⟨hmem, rfl⟩ := mem_of_item? hi
    exact ho.records i hmem hname hmark

/-- A job that is recorded at its target at most is not there if the target is not. -/
theorem RecordedAtMost.not_carries {name : String} {id : JobId} (ho : l.RecordedAtMost name id)
    (hitem : l.item? name = none) : l.carries id = false := by
  rw [carries, Bool.or_eq_false_iff]
  constructor
  · cases hr : l.running with
    | none => rfl
    | some running => exact beq_false_of_ne (ho.pointer running hr)
  · rw [List.any_eq_false]
    intro i hi hfor
    have hname : i.name ≠ name := by
      rintro rfl
      exact List.find?_eq_none.1 hitem i hi (beq_self_eq_true _)
    exact ho.records i hi hname (beq_iff_eq.1 hfor)

/-- Clearing a job that was started finishes the record of its target. -/
theorem settled_of_start (h : l.Sound) (ho : l.RecordedAtMost job.target job.id)
    (start stop : Instant) (duration : Duration) :
    Settled job duration l ((l.start job start).2.clear job.id stop duration).2 := by
  cases hitem : l.item? job.target with
  | none =>
    -- nothing is started, and there is nothing to clear
    have hstart : (l.start job start).2 = l := by
      rw [Ledger.start, hitem]
      rfl
    rw [hstart, clear_of_not_carries (ho.not_carries hitem)]
    refine ⟨fun i hi => ?_, fun _ => rfl, fun _ _ => rfl, rfl, rfl⟩
    cases hitem.symm.trans hi
  | some i =>
    have hreg : (l.item? job.target).isSome := Option.isSome_of_eq_some hitem
    have howner := owner?_eq_some (h.start job start) (jobOf?_start_iff ho hreg start)
    have hstart : (l.start job start).2 =
        { l.changeItem job.target (.begin job.id start) with
          running := some (.ofJob job start) } := by
      rw [Ledger.start, if_pos hreg]
    -- the record that is found is the one of the target
    have hclear : ∀ name, ((l.start job start).2.clear job.id stop duration).2.item? name =
        ((l.changeItem job.target (.begin job.id start)).changeItem job.target
          (.finish stop duration)).item? name := by
      intro name
      rw [item?, clear_items (h.start job start) howner, hstart]
      rfl
    refine ⟨fun i' hi' => ⟨start, stop, ?_, ?_⟩, fun hnone => ?_, fun name hname => ?_,
      (names_clear ..).trans (names_start ..), depth_start l job start⟩
    · rw [hclear, item?_changeItem _ _ (f := .finish stop duration) fun _ => rfl,
        item?_changeItem _ _ (f := .begin job.id start) fun _ => rfl, hi']
      rfl
    · rw [clear, hstart]
      exact if_pos (beq_self_eq_true job.id)
    · cases hitem.symm.trans hnone
    · rw [hclear, item?_changeItem_of_ne _ hname (f := .finish stop duration) fun _ => rfl,
        item?_changeItem_of_ne _ hname (f := .begin job.id start) fun _ => rfl]

end Ledger

/-! ### The bookkeeping -/

/-- The bookkeeping before a job was begun and after it was settled. -/
structure Settled (job : Job) (duration : Duration) (p p' : PerCategory Ledger) : Prop where
  own : (p.get job.category).Settled job duration (p'.get job.category)
  other : ∀ c, c ≠ job.category → p'.get c = p.get c

variable {p : PerCategory Ledger} {job : Job}

theorem Collector.ledgers_begin (k : Collector) (job : Job) (start : Instant) :
    (k.begin job start).2.ledgers = (Operation.start job start).apply k.ledgers := by
  rw [Operation.apply, PerCategory.update_eq_set]
  rfl

theorem Collector.ledgers_settle (k : Collector) (job : Job) (span : Nat) (stop : Instant)
    (result : Except Error Measurement) (duration : Duration) :
    (k.settle job span stop result duration).ledgers =
      (Operation.clear job.category job.id stop duration).apply k.ledgers := by
  rw [Operation.apply, PerCategory.update_eq_set]
  rfl

/-- A job is settled in the bookkeeping by its start and its clearing. -/
theorem settled_of_apply (h : (p.get job.category).Sound)
    (ho : (p.get job.category).RecordedAtMost job.target job.id) (start stop : Instant)
    (duration : Duration) :
    Settled job duration p ((Operation.clear job.category job.id stop duration).apply
      ((Operation.start job start).apply p)) := by
  have hclear : (Operation.clear job.category job.id stop duration).category = job.category := rfl
  have hstart : (Operation.start job start).category = job.category := rfl
  refine ⟨?_, fun c hc => ?_⟩
  · rw [Operation.get_apply, if_pos hclear, Operation.get_apply, if_pos hstart]
    exact Ledger.settled_of_start h ho start stop duration
  · rw [Operation.get_apply, if_neg (hclear ▸ hc.symm), Operation.get_apply,
      if_neg (hstart ▸ hc.symm)]

/-! ### Among other tasks -/

namespace Engine

variable {r : Routine} {s s' : Engine} {e : Act} {c : Category} {job : Job} {acts : List Act}
  {p : PerCategory Ledger}

/-- An act that leaves the bookkeeping alone. -/
def Act.SparesLedgers : Act → Prop
  | register _ | reserve _ _ | withdraw _ _ | begin _ _ | settle _ _ | recordDepth _ _ => False
  | _ => True

theorem Step.ledgers_of_spares (h : Step r s e s') (he : e.SparesLedgers) :
    s'.collector.ledgers = s.collector.ledgers := by
  cases h with
  | register | reserve | withdraw | begin | settle | recordDepth => exact he.elim
  | draw hk | enqueue _ hk | idle _ hk | take _ hk | finish _ hk _ =>
    exact (congrArg (·.2.ledgers) hk).symm
  | _ => rfl

/-- Beginning a job writes it into the bookkeeping. -/
theorem Step.ledgers_of_begin (h : Step r s (.begin c job) s') :
    s.worker c = .holding job ∧ (s'.worker c).measured = some job ∧
      ∃ start, s'.collector.ledgers = (Operation.start job start).apply s.collector.ledgers := by
  cases h with
  | @begin _ _ start span k hw hk =>
    have hledgers := s.collector.ledgers_begin job start
    rw [hk] at hledgers
    refine ⟨hw, ?_, start, hledgers⟩
    rw [worker, PerCategory.get_set]
    rfl

/-- A worker that does not begin or settle a job measures what it measured before. -/
theorem Step.measured_of_spares (h : Step r s e s') (he : e.SparesLedgers) :
    (s'.worker c).measured = (s.worker c).measured := by
  cases h.turn c with
  | away _ hw => rw [hw]
  | idle _ hj hj' => rw [WorkerStage.measured_of_jobs hj, WorkerStage.measured_of_jobs hj']
  | take other _ hw hw' => rw [hw, hw']; rfl
  | begin other span hbegin => exact absurd he (hbegin ▸ id)
  | goOn other span before rest _ _ hw hw' => rw [hw, hw']; rfl
  | settle other hsettle => exact absurd he (hsettle ▸ id)

/-- The bookkeeping, while a worker is at a job and nobody else writes into it, is as it
was before, or as it was left when the job was begun. -/
theorem ledgers_of_leads (hl : Leads (Step r) s acts s') (hp : s.collector.ledgers = p)
    (hw : s.worker c = .holding job) (he : ∀ e ∈ acts, e = .begin c job ∨ e.SparesLedgers) :
    ((s'.worker c).measured = none ∧ s'.collector.ledgers = p) ∨
      ((s'.worker c).measured = some job ∧
        ∃ start, s'.collector.ledgers = (Operation.start job start).apply p) := by
  induction hl with
  | refl => exact .inl ⟨by rw [hw]; rfl, hp⟩
  | @step acts s₁ s₂ e _ hs ih =>
    have hbefore := ih fun e' he' => he e' (List.mem_cons_of_mem e he')
    rcases he e List.mem_cons_self with rfl | hspare
    · obtain ⟨hhold, hmeas, start, hbegun⟩ := hs.ledgers_of_begin
      rcases hbefore with ⟨-, hledgers⟩ | ⟨hmeas', -⟩
      · exact .inr ⟨hmeas, start, hledgers ▸ hbegun⟩
      · rw [hhold] at hmeas'
        cases hmeas'
    · rw [hs.measured_of_spares hspare, hs.ledgers_of_spares hspare]
      exact hbefore

/-- A worker that settles a job was measuring it. -/
theorem Step.measured_of_settle (h : Step r s (.settle c job) s') :
    (s.worker c).measured = some job := by
  cases h with
  | settle hw => rw [worker, hw]; rfl

/-- The step settles the job with what its measurement may come to, and leaves the
bookkeeping as it was before the job was begun, with the job settled. -/
def Settles (r : Routine) (job : Job) (p : PerCategory Ledger) (s s' : Engine) : Prop :=
  ∃ xs result span now duration,
    (Measurement.take r.policy job.kind job.timeout).Trace xs result ∧
    s'.collector = s.collector.settle job span now result duration ∧
    DiskWatch.Settled job duration p s'.collector.ledgers

/-- While nobody else writes into the bookkeeping, a worker settles the job that it holds. -/
theorem settles_of_leads (hl : Leads (Step r) s acts s') (hp : s.collector.ledgers = p)
    (hsound : (p.get job.category).Sound)
    (ho : (p.get job.category).RecordedAtMost job.target job.id) (hw : s.worker c = .holding job)
    (he : ∀ e ∈ acts, e = .begin c job ∨ e.SparesLedgers) {s'' : Engine}
    (hs : Step r s' (.settle c job) s'') : Settles r job p s' s'' := by
  have hunderway : Underway r job (s'.worker c) := by
    refine underway_of_leads hl hw fun other hmem => ?_
    rcases he _ hmem with h | h
    · cases h
    · exact h
  obtain ⟨-, xs, result, span, now, duration, hxs, hsettle⟩ := settle_of_underway hunderway hs
  refine ⟨xs, result, span, now, duration, hxs, hsettle, ?_⟩
  rcases ledgers_of_leads hl hp hw he with ⟨hmeas, -⟩ | ⟨-, start, hbegun⟩
  · cases hmeas.symm.trans hs.measured_of_settle
  · rw [hsettle, Collector.ledgers_settle, hbegun]
    exact settled_of_apply hsound ho start now duration

end Engine

open World in
/-- Processing a job always settles it.  Let the bookkeeping be what any operations have
made of it, but such that the category does not point at the job and no record but that of
its target names it.  The target may be registered or not, it may be idle or marked with
this job or another one, and the job may be cancelled or not.

* In a world without other tasks the processing ends, whatever the surroundings answer.
  The job is reported with exactly the result of its measurement, and the record of its
  target is idle, with one more run, both its times and the reported duration; the
  category points at no job.  A target that is not registered makes no difference to the
  bookkeeping.  The other records and the other category are as they were.
* Among other tasks that leave the bookkeeping alone, and whatever they and the outside do
  meanwhile, the worker settles a job that it holds with a result that the measurement may
  come to, and leaves the bookkeeping so as well.
* If there the worker acts again whenever it is at a job, it does come to settle it.
* The runs are counted modulo 2^64.  The one more run is that of one more clearing, and it
  makes the count greater by one as long as fewer than 2^64 clearings have found the target. -/
theorem settled_by_processing (policy : RetryPolicy) (past : List Operation) (job : Job)
    (ho : ((Operation.after past).get job.category).RecordedAtMost job.target job.id) :
    (∀ w : World, w.slots = [] → w.ready = [] → w.collector.ledgers = Operation.after past →
      ∃ w' report, w.EndsIn policy job w' ∧ w'.reports = w.reports ++ [report] ∧
        report.job = job ∧ report.result = (w.measured policy job).1 ∧
        Settled job report.duration (Operation.after past) w'.collector.ledgers) ∧
    (∀ (r : Routine) (c : Category) (s s₁ s' : Engine) (acts : List Engine.Act),
      s.collector.ledgers = Operation.after past → s.worker c = .holding job →
      Leads (Engine.Step r) s acts s₁ → (∀ e ∈ acts, e = .begin c job ∨ e.SparesLedgers) →
      Engine.Step r s₁ (.settle c job) s' →
      Engine.Settles r job (Operation.after past) s₁ s') ∧
    (∀ (r : Routine) (c : Category) (s : Nat → Engine) (e : Nat → Engine.Act),
      (s 0).collector.ledgers = Operation.after past → (s 0).worker c = .holding job →
      Engine.Endless r c s e →
      (∀ n, (∀ k ≤ n, e k ≠ .settle c job) → e n = .begin c job ∨ (e n).SparesLedgers) →
      ∃ n, e n = .settle c job ∧
        Engine.Settles r job (Operation.after past) (s n) (s (n + 1))) ∧
    ∀ i, ((Operation.after past).get job.category).item? job.target = some i →
      i.completedRuns + 1 =
        .ofNat (Operation.clearings job.category job.target past + 1) ∧
      (Operation.clearings job.category job.target past + 1 < 2 ^ 64 →
        (i.completedRuns + 1).toNat = i.completedRuns.toNat + 1) := by
  have hkept := Operation.kept past job.category
  have hsound := hkept.sound
  refine ⟨?_, ?_, ?_, fun i hi => ?_⟩
  · intro w hs hr hp
    obtain ⟨w', hends, hend⟩ := process_ends w policy job hs hr
    refine ⟨w', _, hends, hend.reports, rfl, rfl, ?_⟩
    have hbegun : (w.beginRun policy job).2.collector.ledgers =
        (Operation.start job w.now).apply (Operation.after past) :=
      (w.collector.ledgers_begin job w.now).trans (by rw [hp])
    rw [hend.collector, Collector.ledgers_settle]
    dsimp only
    rw [hbegun]
    exact settled_of_apply hsound ho w.now _ _
  · intro r c s s₁ s' acts hp hw hl he hs
    exact Engine.settles_of_leads hl hp hsound ho hw he hs
  · intro r c s e hp hw hendless he
    obtain ⟨n, hset, hfirst⟩ := hendless.exists_settle hw
    refine ⟨n, hset, Engine.settles_of_leads (hendless.leads n) hp hsound ho hw ?_
      (hset ▸ hendless.step n)⟩
    -- what is done before the job is settled is done while it is not
    intro act hmem
    obtain ⟨k, hk, rfl⟩ := List.mem_map.1 (List.mem_reverse.1 hmem)
    have hlt : k < n := List.mem_range.1 hk
    exact he k fun j hj => hfirst j (Nat.lt_of_le_of_lt hj hlt) job
  · have hcounts := hkept.counts job.target
    rw [Ledger.tally_of_item? hi] at hcounts
    -- the end of the run would be counted so
    have hended := hcounts.ended 0 job.timeout
    refine ⟨hended.runs, fun hfew => ?_⟩
    exact (hended.exact hfew).trans
      (congrArg (· + 1) (hcounts.exact (Nat.lt_of_succ_lt hfew)).symm)

/-- A cancelled job whose path is refused is processed although it was never admitted, while
its target is marked with another job and the category points at a job of another target. -/
theorem settled_by_processing_of_stranger : ∃ w w' : World, ∃ job report i,
    w.collector.ledgers.filesystem.running.isSome ∧
    w.collector.ledgers.filesystem.jobOf? "root" = some ⟨"a"⟩ ∧
    w.EndsIn .standard job w' ∧ w'.reports = [report] ∧ report.job = job ∧
    report.result.isOk = false ∧
    w'.collector.ledgers.filesystem.item? "root" = some i ∧ i.running = false ∧ i.job = none ∧
    i.completedRuns = 1 ∧ i.lastDuration = some report.duration ∧
    w'.collector.ledgers.filesystem.running = none ∧
    w'.collector.ledgers.filesystem.jobOf? "data" = some ⟨"b"⟩ := by
  let kind : JobKind := .filesystem ⟨⟨"/*"⟩, "disk"⟩
  let job : Job := ⟨⟨"late"⟩, "root", kind, .ofSecs 10, .ofSecs 60, none, .own true⟩
  let past : List Operation :=
    [.start ⟨⟨"b"⟩, "data", kind, .ofSecs 10, .ofSecs 60, none, .shutdown⟩ 5,
      .reserve .filesystem "root" ⟨"a"⟩, .register .filesystem "data", .register .filesystem "root"]
  let settings : Settings :=
    { Routine.standard with
      surroundings := ⟨fun _ => .present, fun _ => .zero, fun _ _ => .ok ""⟩
      stopwatch := fun _ => .ofSecs 1
      cancelFirst := false }
  let w := World.start settings
    { Collector.start (.both ⟨1, [], true, 1⟩) with ledgers := Operation.after past }
  have ho : ((Operation.after past).get job.category).RecordedAtMost job.target job.id :=
    ⟨by decide, by decide⟩
  obtain ⟨halone, -⟩ := settled_by_processing .standard past job ho
  obtain ⟨w', report, hends, hreports, hjob, hresult, hsettled⟩ := halone w rfl rfl rfl
  obtain ⟨i, hi⟩ : ∃ i, ((Operation.after past).get .filesystem).item? "root" = some i :=
    Option.isSome_iff_exists.1 (by decide)
  have hruns : (((Operation.after past).get .filesystem).item? "root").map Item.completedRuns =
    some 0 := by decide
  obtain ⟨start, stop, hitem, hpointer⟩ := hsettled.own.registered i hi
  have hdata := hsettled.own.others "data" (by decide)
  refine ⟨w, w', job, report, _, by decide, by decide, hends, hreports, hjob, ?_, hitem, rfl, rfl,
    ?_, rfl, hpointer, ?_⟩
  · rw [hresult]
    decide +kernel
  · rw [hi] at hruns
    dsimp only
    rw [Option.some.inj hruns]
    rfl
  · have hmark : ((Operation.after past).get .filesystem).jobOf? "data" = some ⟨"b"⟩ := by decide
    exact (congrArg (·.bind Item.job) hdata).trans hmark

end DiskWatch
