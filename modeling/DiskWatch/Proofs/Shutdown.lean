/-
DiskWatch/Proofs/Shutdown.lean

What the daemon leaves behind.  When it returns, everything that it waited for has
ended, so the engine is at rest (`Returned.atRest`), and what its ledgers say is
told by the history (`state_after_return`).

It does not wait for watchdogs (`left_to_watchdogs`).  One that is still there
closes at its next move, but until then its job is in flight and the span of its
cycle lacks an outcome; and where a watchdog could not begin or go on it stays that way.

The running program is one of these daemons: when it has stopped, a run of the
daemon has returned with the same collector (`Serving.returned`), so no ledger points at a
job any more (`Serving.pointer_of_stop`).
-/
import DiskWatch.Proofs.Patience
import DiskWatch.Proofs.Rest
import DiskWatch.Proofs.Schedule
import DiskWatch.Proofs.Service

namespace DiskWatch

namespace Service

open Engine (AtRest CycleSpan Distinct jobs lastAdmitted? unclosed)

variable {r : Routine} {config : Config} {past : List Act} {s : Service}

theorem Returned.atRest (hs : s.Returned) (h : Run r config past s) : s.engine.AtRest :=
  ⟨hs.ticks h, hs.workers⟩

/-! ### A daemon that is stopped after its first tick -/

/-- A timer whose tick ends with the job in the queue, from one beat to the next. -/
theorem Run.handedOver (h : Run r config past s) {i : Nat} {t : Target}
    (hl : s.loops[i]? = some ⟨.tick t, .waiting⟩) (hf : s.engine.collector.shutdown = false)
    (clock : Int) {job : Job} {k : Collector}
    (ht : s.engine.collector.tick t clock = (.enqueued job, k)) :
    Run r config
      (.deed i (.dispatch job) :: .deed i (.enqueue job none) ::
        .deed i (.reserve job .admitted) :: .deed i (.draw job) :: .wake i :: past)
      { s with
        engine := { s.engine with collector := k, sentries := ⟨job, none⟩ ::ₘ s.engine.sentries } } :=
  h.leads (leads_of_duty hl hf (Engine.done_of_enqueued ht) (Engine.leads_of_enqueued ht))

/-- A shutdown after the first tick, before the worker and the watchdog of the job
have begun: all that the daemon waits for ends. -/
theorem exists_cutShort (r : Routine) (seconds : UInt64) :
    ∃ (past : List Act) (s : Service) (job : Job),
      Run r (Engine.singleConfig seconds) past s ∧ s.Finished ∧ s.result = none ∧
      s.engine.sentries = {⟨job, none⟩} ∧ s.engine.now = 0 ∧
      job.category = .filesystem ∧ job.target = "root" ∧
      job.timeout = max (.ofSecs seconds) Config.minPeriod ∧
      ∃ t, engineActs past = [.stop .directory, .stop .filesystem, .shutdown 0, .dispatch job,
        .enqueue job none, .reserve job .admitted, .draw job, .register t] := by
  have h₀ : Run r (Engine.singleConfig seconds) [] _ := .start rfl
  have h₁ := h₀.step (.register rfl (.register _ _))
  have h₂ := h₁.step (.spawn rfl)
  have h₃ := h₂.step (.spawn rfl)
  have h₄ := h₃.step (.spawn rfl)
  have h₅ := h₄.handedOver (i := 0) rfl rfl 7 rfl
  -- the shutdown, and then whoever sees it
  have h₆ := h₅.step (.own rfl (.shutdown _))
  have h₇ := h₆.step (.own rfl (.stop (c := .filesystem) rfl rfl))
  have h₈ := h₇.step (.own rfl (.stop (c := .directory) rfl rfl))
  have h₉ := h₈.step (.stop (i := 0) rfl rfl)
  have h₁₀ := h₉.step (.stop (i := 1) rfl rfl)
  have h₁₁ := h₁₀.step (.stop (i := 2) rfl rfl)
  refine ⟨_, _, _, h₁₁, ⟨rfl, rfl, fun c => ?_, fun l hl => ?_⟩, rfl, rfl, rfl, rfl, rfl, rfl,
    _, rfl⟩
  · cases c <;> rfl
  · have hmem : l.stage ∈ [LoopStage.over, .over, .over] :=
      List.mem_map_of_mem (f := Loop.stage) hl
    simpa using hmem

/-! ### The state after the return -/

/-- In every run of the daemon, under any configuration: if it has returned, it has
returned without an error.  Then no ledger points at a job.  Every job that a worker
took out was settled by it, whenever the shutdown came, and has a target on record.
A worker took nothing out after it had stopped, and a timer or sampler that had seen
the shutdown did nothing any more.  As long as identifiers tell the jobs apart, and
that is for fewer than 2^64 ticks at least, a target counts one run for each of its
jobs that was taken out, modulo 2^64 and for fewer than 2^64 ticks exactly; and it is
left running exactly when the last of its jobs that was admitted went into the queue
and was never taken out. -/
theorem state_after_return (h : Run r config past s) {result : Except Error Unit}
    (hret : s.result = some result) :
    result = .ok () ∧
    (∀ c, (s.engine.ledger c).running = none) ∧
    (∀ c, jobs (Engine.Act.takenIn? c) (engineActs past) =
        jobs (Engine.Act.settledIn? c) (engineActs past) ∧
      ∀ job ∈ jobs (Engine.Act.takenIn? c) (engineActs past), job.category = c ∧
        ∃ i, (s.engine.ledger c).item? job.target = some i) ∧
    (∀ c later before, past = later ++ .own (.stop c) :: before →
      jobs (Engine.Act.takenIn? c) (engineActs later) = []) ∧
    (∀ i later before, past = later ++ .stop i :: before →
      .wake i ∉ later ∧ ∀ a, .deed i a ∉ later) ∧
    ((jobs Engine.Act.drawn? (engineActs past)).length < 2 ^ 64 → Distinct (engineActs past)) ∧
    (Distinct (engineActs past) → ∀ c name i, (s.engine.ledger c).item? name = some i →
      i.completedRuns =
        .ofNat ((jobs (Engine.Act.takenIn? c) (engineActs past)).countP (·.target = name)) ∧
      ((jobs Engine.Act.drawn? (engineActs past)).length < 2 ^ 64 → i.completedRuns.toNat =
        (jobs (Engine.Act.takenIn? c) (engineActs past)).countP (·.target = name)) ∧
      (i.running = true ↔ ∃ job, lastAdmitted? (engineActs past) c name = some job ∧
        job ∈ jobs Engine.Act.accepted? (engineActs past) ∧
          ∀ d, job ∉ jobs (Engine.Act.takenIn? d) (engineActs past))) := by
  have hs : s.Returned := h.returned (hret ▸ rfl)
  have hrest : s.engine.AtRest := hs.atRest h
  refine ⟨?_, hrest.pointer h.engine, fun c => ?_, ?_, ?_, ?_, fun hd c name i hi => ?_⟩
  · exact Option.some.inj (hret.symm.trans hs.result)
  · exact ⟨hrest.taken h.engine c, fun job hj => hrest.exists_item h.engine hj⟩
  · rintro c later before rfl
    exact h.after_worker.2
  · rintro i later before rfl
    exact h.after_stop.2
  · exact Engine.distinct_of_few h.engine
  · refine ⟨(hrest.completedRuns h.engine hd hi).runs, fun few => ?_, ?_⟩
    · exact hrest.completedRuns_exact h.engine few hi
    · exact hrest.running_iff h.engine hd hi

/-- A job that no worker comes to take out leaves its target running. -/
theorem state_after_return_of_first_tick : ∃ past s i,
    Run .standard (Engine.singleConfig 20) past s ∧ s.result = some (.ok ()) ∧
      (s.engine.ledger .filesystem).item? "root" = some i ∧ i.running = true ∧
        i.completedRuns = 0 := by
  obtain ⟨past, s, job, h, hf, hr, -, -, hc, ht, -, t, hpast⟩ := exists_cutShort .standard 20
  have hdone := h.step (.conclude hr hf)
  have hacts : engineActs (.conclude :: past) = engineActs past := rfl
  have hadm : job ∈ jobs Engine.Act.admitted? (engineActs past) := by
    rw [hpast]
    exact List.mem_singleton_self job
  have hreg := Engine.registered_of_admitted h.engine hadm
  rw [hc, ht] at hreg
  obtain ⟨i, hi⟩ := Option.isSome_iff_exists.1 hreg
  obtain ⟨-, -, -, -, -, hfew, hitems⟩ := state_after_return hdone rfl
  rw [hacts, hpast] at hfew hitems
  obtain ⟨hruns, -, hrunning⟩ :=
    hitems (hfew (show 1 < 2 ^ 64 by decide)) .filesystem "root" i hi
  refine ⟨_, _, i, hdone, rfl, hi, ?_, hruns⟩
  apply hrunning.2
  refine ⟨job, ?_, List.mem_singleton_self job, nofun⟩
  simp [lastAdmitted?, jobs, Engine.Act.admitted?, hc, ht]

/-! ### What is left to the watchdogs -/

/-- When the daemon has returned, the workers have stopped, its tasks are over and no
tick is under way.  What is left are watchdogs.  The span of a cycle has an outcome
unless its watchdog has not closed, because it is still there or because it could
not begin or go on; and the records in flight are those of these jobs.  Nothing keeps a
watchdog that has begun from closing at once. -/
theorem left_to_watchdogs (h : Run r config past s) (hret : s.result.isSome) :
    (∀ c, s.engine.worker c = .stopped) ∧ (∀ l ∈ s.loops, l.stage = .over) ∧
    s.engine.ticks = 0 ∧
    (∀ job ∈ jobs Engine.Act.drawn? (engineActs past),
      job ∈ unclosed (engineActs past) s.engine ∧ CycleSpan s.engine job [] ∨
        job ∉ unclosed (engineActs past) s.engine ∧ ∃ outcome, CycleSpan s.engine job [outcome]) ∧
    (Distinct (engineActs past) → (s.engine.collector.inFlight : Multiset Dispatch) =
      (unclosed (engineActs past) s.engine).map .ofJob) ∧
    ∀ job w, ⟨job, some w⟩ ∈ s.engine.sentries →
      Engine.Enabled r s.engine (.close job .shutdown s.engine.now) := by
  have hs : s.Returned := h.returned hret
  refine ⟨hs.workers, hs.loops, hs.ticks h, fun job hj => ?_, ?_, fun job w hx => ?_⟩
  · exact Engine.cycle_of_quiet h.engine (hs.ticks h) hj
  · exact Engine.inFlight_eq_unclosed h.engine
  · exact Engine.enabled_shutdown hx hs.shutdown

/-- The daemon returns while a watchdog is there. -/
theorem left_to_watchdogs_of_first_tick : ∃ past s job,
    Run .standard (Engine.singleConfig 20) past s ∧ s.result = some (.ok ()) ∧
      s.engine.sentries = {⟨job, none⟩} ∧ CycleSpan s.engine job [] ∧
        (s.engine.collector.inFlight : Multiset Dispatch) = {.ofJob job} := by
  obtain ⟨past, s, job, h, hf, hr, hsen, -, -, -, -, t, hpast⟩ := exists_cutShort .standard 20
  have hdone := h.step (.conclude hr hf)
  have hacts : engineActs (.conclude :: past) = _ := hpast
  obtain ⟨-, -, -, hspans, hflight, -⟩ := left_to_watchdogs hdone rfl
  rw [hacts, unclosed, hsen] at hspans hflight
  refine ⟨_, _, job, hdone, rfl, hsen, ?_, ?_⟩
  · rcases hspans job (List.mem_singleton_self job) with ⟨-, hspan⟩ | ⟨hclosed, -⟩
    · exact hspan
    · exact absurd (Multiset.mem_singleton_self job) hclosed
  · exact hflight (List.nodup_singleton _)

/-- A watchdog whose deadline the clock cannot show does not begin.  When the daemon
returns no watchdog is there, but the job is in flight and its cycle has no outcome. -/
theorem left_open_by_return : ∃ past s job,
    Run .standard (Engine.singleConfig 9223372036854775807) past s ∧
      s.result = some (.ok ()) ∧ s.engine.sentries = 0 ∧ CycleSpan s.engine job [] ∧
        (s.engine.collector.inFlight : Multiset Dispatch) = {.ofJob job} := by
  obtain ⟨past, s, job, h, hf, hr, hsen, hnow, -, -, hout, t, hpast⟩ :=
    exists_cutShort .standard 9223372036854775807
  have hbegin : Watch.begin? .standard job.timeout s.engine.now = none := by
    rw [hout, hnow]
    rfl
  have hfaint := h.step (.own rfl (.faint hsen hbegin))
  have hdone := hfaint.step (.conclude hr ⟨hf.chores, hf.shutdown, hf.workers, hf.loops⟩)
  have hrun := hdone.engine
  have hacts : engineActs (.conclude :: .own (.faint job) :: past) =
    .faint job :: engineActs past := rfl
  rw [hacts, hpast] at hrun
  have hquiet := (hdone.returned rfl).ticks hdone
  refine ⟨_, _, job, hdone, rfl, rfl, ?_, ?_⟩
  · rcases Engine.cycle_of_quiet hrun hquiet (List.mem_singleton_self job) with
      ⟨-, hspan⟩ | ⟨hclosed, -⟩
    · exact hspan
    · exact absurd (Multiset.mem_singleton_self job) hclosed
  · exact Engine.inFlight_eq_unclosed hrun (List.nodup_singleton _)

end Service

/-! ### The running program -/

namespace World

variable {config : Config} {settings : Settings} {w : World} {r : Routine} {v : Service}

theorem not_awaited (hb : Daemon.busy w = false) {task : Task} (ht : task ∈ w.tasks) :
    isAwaited task = false := by
  obtain ⟨x, hx, rfl⟩ := List.mem_map.1 (Multiset.mem_coe.1 ht)
  exact Bool.eq_false_iff.2 (List.any_eq_false.1 hb x hx)

/-- When the program waits for no task any more, all that the daemon waits for has ended. -/
theorem Mirrors.finished (h : Mirrors r [] w v) (hb : Daemon.busy w = false)
    (hf : w.collector.shutdown = true) : v.Finished := by
  obtain ⟨hshows, hchores, -, hwaiting, hidle⟩ := h.visible
  refine ⟨hchores, hshows.collector ▸ hf, fun c => ?_, fun l hl => ?_⟩
  · rcases hshows.workers c with ⟨-, hstopped⟩ | ⟨run, hrun, -⟩
    · exact hstopped
    · -- a worker that has not stopped has a task, and the program would wait for it
      have hmem : run ∈ w.tasks.filterMap (workOf? c) := hrun ▸ Multiset.mem_singleton_self run
      obtain ⟨task, ht, hwork⟩ := (Multiset.mem_filterMap _ _).1 hmem
      have hidle := not_awaited hb ht
      cases task with
      | watchdog => cases hwork
      | _ => cases hidle
  · rcases hidle l hl with hwait | hover
    · -- so has a loop that waits
      have hmem : l.duty ∈ (v.loops.filterMap Loop.waiting? : Multiset Duty) := by
        refine Multiset.mem_coe.2 (List.mem_filterMap.2 ⟨l, hl, ?_⟩)
        rw [Loop.waiting?, hwait]
      rw [hwaiting] at hmem
      obtain ⟨task, ht, hduty⟩ := (Multiset.mem_filterMap _ _).1 hmem
      have hidle := not_awaited hb ht
      cases task with
      | watchdog => cases hduty
      | _ => cases hidle
    · exact hover

/-- When the program has stopped the daemon has returned, with the same collector. -/
theorem Serving.returned (h : Serving config settings w)
    (hb : Daemon.busy (Daemon.stop w) = false) : ∃ past v,
      Service.Run settings.toRoutine config past v ∧ v.result = some (.ok ()) ∧
        v.engine.collector = (Daemon.stop w).collector := by
  obtain ⟨past, v, hrun, hm⟩ := serving_shown h.stop
  have hdone := hrun.run.step (.conclude hm.visible.result (hm.finished hb h.shutdown_of_stop))
  exact ⟨_, _, hdone, rfl, hm.visible.visible.collector⟩

/-- Once the program has stopped, no ledger points at a job. -/
theorem Serving.pointer_of_stop (h : Serving config settings w)
    (hb : Daemon.busy (Daemon.stop w) = false) (c : Category) :
    ((Daemon.stop w).collector.ledgers.get c).running = none := by
  obtain ⟨past, v, hrun, hresult, hk⟩ := h.returned hb
  rw [← hk]
  have hs : v.Returned := hrun.returned (hresult ▸ rfl)
  exact (hs.atRest hrun).pointer hrun.engine c

end World

end DiskWatch
