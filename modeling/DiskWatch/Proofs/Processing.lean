/-
DiskWatch/Proofs/Processing.lean

One job from its beginning to its settling, alone and among other tasks.

In a world without other tasks the moves of an errand follow the measurement node by
node: a node takes a step or two, of which the second one ends a wait.  So the errand
ends, after as many steps as it takes, and what it ends with is what the measurement
comes to when it runs by itself (`process_ends`).

Among other tasks nothing is known of the answers, but the worker goes through some trace
of the measurement, from the step that begins the job to the one that settles it.  This
is an invariant of its steps (`Underway`), and the job is settled with the result of the
trace (`settle_of_underway`).  No number of steps bounds how long that takes, as an answer
may be followed by any number of exchanges, but no measurement goes on for ever: a worker
that acts again and again settles its job (`Endless.exists_settle`).
-/
import DiskWatch.Proofs.CriticalSection
import DiskWatch.Proofs.Exchanges
import DiskWatch.World
import Mathlib.Data.Nat.Find

namespace DiskWatch

namespace World

variable {w w' u : World} {m : Nat} {r : Run} {job : Job} {span : Nat} {policy : RetryPolicy}

/-! ### Running an errand -/

/-- Lets the errands run, for so many steps at most. -/
def runErrands (fuel : Nat) (w : World) : World :=
  runWhile (fun w => w.slots.any fun s => isErrand s.task) none fuel w

/-- Some steps lead from one world to the other, however many may follow. -/
def Reaches (w w' : World) : Prop := ∃ n, ∀ fuel, runErrands (n + fuel) w = runErrands fuel w'

theorem Reaches.trans (h : w.Reaches w') (h' : w'.Reaches u) : w.Reaches u := by
  obtain ⟨n, hn⟩ := h
  obtain ⟨k, hk⟩ := h'
  refine ⟨n + k, fun fuel => ?_⟩
  rw [Nat.add_assoc, hn, hk]

/-- A world without tasks stays as it is. -/
theorem runErrands_of_nil (h : w.slots = []) (fuel : Nat) : runErrands fuel w = w := by
  cases fuel with
  | zero => rfl
  | succ fuel =>
    rw [runErrands, runWhile, h]
    rfl

/-! ### The steps of an errand -/

/-- An errand is the only task. -/
def onlyErrand (w : World) (m : Nat) (r : Run) (wait : Option Wait) : World :=
  { w with slots := [⟨m, .errand r, wait⟩], ready := if wait.isNone then [m] else [] }

/-- The move of a measurement does not look at the tasks. -/
theorem moveRun_tasks (w : World) (r : Run) (slots : List Slot) (ready : List Nat) :
    ({ w with slots := slots, ready := ready } : World).moveRun r =
      ((w.moveRun r).1, { (w.moveRun r).2 with slots := slots, ready := ready }) := by
  obtain ⟨job, span, phase⟩ := r
  cases phase with
  | going rest =>
    cases rest with
    | call c next =>
      simp only [moveRun]
      by_cases hwake : w.settings.clock.wake w.now (w.settings.surroundings.delay c) = w.now
      · simp [seeCall, answer, hwake]
      · simp [seeCall, hwake]
    | pause d next =>
      simp only [moveRun]
      split <;> rfl
    | _ => rfl
  | calling c next => rfl
  | pausing wake next => rfl

/-- What becomes of the world by a move of its only errand. -/
def afterMove (w : World) (m : Nat) (r : Run) : Progress → World
  | .goOn r' => w.onlyErrand m r' none
  | .wait r' wait => w.onlyErrand m r' (some wait)
  | .ended result => { w.endRun r result with slots := [], ready := [] }

theorem reaches_move (w : World) (m : Nat) (r : Run) :
    (w.onlyErrand m r none).Reaches ((w.moveRun r).2.afterMove m r (w.moveRun r).1) := by
  have hstep : (w.onlyErrand m r none).step? none =
      some ((w.moveRun r).2.afterMove m r (w.moveRun r).1) := by
    have hmove := moveRun_tasks w r [⟨m, .errand r, none⟩] []
    simp only [step?, onlyErrand, runMove, Option.isNone_none, if_true, List.find?_cons,
      beq_self_eq_true, move, moveErrand, hmove]
    cases (w.moveRun r).1 with
    | goOn r' => simp [setSlot, afterMove, onlyErrand]
    | wait r' wait => simp [setSlot, afterMove, onlyErrand]
    | ended result => simp [afterMove, endRun, onCollector]
  refine ⟨1, fun fuel => ?_⟩
  rw [Nat.add_comm, runErrands, runWhile, hstep]
  rfl

/-- A look at a path ends. -/
theorem reaches_of_look (w : World) (m : Nat) (r : Run) :
    (w.onlyErrand m r (some .look)).Reaches (w.onlyErrand m r none) := by
  refine ⟨1, fun fuel => ?_⟩
  rw [Nat.add_comm]
  rfl

/-- An alarm comes. -/
theorem reaches_of_alarm (w : World) (m : Nat) (r : Run) (t : Instant) (cut : Bool) :
    (w.onlyErrand m r (some (.alarm t cut))).Reaches
      ({ w with now := max w.now t }.onlyErrand m r none) := by
  have hstep : (w.onlyErrand m r (some (.alarm t cut))).step? none =
      some ({ w with now := max w.now t }.onlyErrand m r none) := by
    simp [step?, onlyErrand, nextAlarm?, wakeWhere, Wait.isDue]
  refine ⟨1, fun fuel => ?_⟩
  rw [Nat.add_comm, runErrands, runWhile, hstep]
  rfl

/-! ### An errand to its end -/

/-- What a measurement meets in a world without other tasks: a signal that is not given
at its start is never given. -/
def conditions (w : World) (job : Job) (span : Nat) : Activity.Conditions where
  clock := w.settings.clock
  surroundings := w.settings.surroundings
  cancelAt := if job.stop.given w.collector.shutdown then some 0 else none
  cancelFirst := w.settings.cancelFirst
  span := some span

/-- The world once a call has been answered. -/
def answered (w : World) (k : Call) : World :=
  { w.seeCall k with
    now := w.settings.clock.wake w.now (w.settings.surroundings.delay k)
    ended := k :: w.ended }

/-- A call is answered at once, or at an alarm. -/
theorem reaches_of_call (w : World) (m : Nat) (job : Job) (span : Nat) (k : Call)
    (next : Except Error String → Activity (Except Error Measurement)) :
    (w.onlyErrand m ⟨job, span, .going (.call k next)⟩ none).Reaches
      ((w.answered k).onlyErrand m
        ⟨job, span, .going (next (w.settings.surroundings.result w.ended k))⟩ none) := by
  have hfirst := reaches_move w m ⟨job, span, .going (.call k next)⟩
  have hle : w.now ≤ w.settings.clock.wake w.now (w.settings.surroundings.delay k) :=
    Clock.le_wake
  by_cases hwake : w.settings.clock.wake w.now (w.settings.surroundings.delay k) = w.now
  · simpa [moveRun, afterMove, seeCall, answer, answered, hwake] using hfirst
  · have hwait : w.moveRun ⟨job, span, .going (.call k next)⟩ =
        (.wait ⟨job, span, .calling k next⟩
          (.alarm (w.settings.clock.wake w.now (w.settings.surroundings.delay k)) false),
          w.seeCall k) := if_neg hwake
    rw [hwait] at hfirst
    have halarm := reaches_of_alarm (w.seeCall k) m ⟨job, span, .calling k next⟩
      (w.settings.clock.wake w.now (w.settings.surroundings.delay k)) false
    have hanswer := reaches_move
      { w.seeCall k with now := w.settings.clock.wake w.now (w.settings.surroundings.delay k) } m
      ⟨job, span, .calling k next⟩
    rw [show (w.seeCall k).now = w.now from rfl, Nat.max_eq_right hle] at halarm
    exact hfirst.trans (halarm.trans hanswer)

/-- A pause is cut at once where the signal is given, and else it is waited out. -/
theorem pauseEnd_conditions (w : World) (job : Job) (span : Nat) (now : Instant) (d : Duration) :
    Activity.pauseEnd (w.conditions job span) now d =
      if job.stop.given w.collector.shutdown then
        (now < w.settings.clock.wake now d || w.settings.cancelFirst, now)
      else (false, w.settings.clock.wake now d) := by
  have hle : now ≤ w.settings.clock.wake now d := Clock.le_wake
  unfold Activity.pauseEnd conditions
  cases job.stop.given w.collector.shutdown with
  | false => rfl
  | true =>
    simp only [if_true, Nat.max_eq_left (Nat.zero_le now)]
    rcases Nat.eq_or_lt_of_le hle with heq | hlt
    · simp [← heq]
    · simp [hlt]

/-- A pause ends at once, or at an alarm. -/
theorem reaches_of_pause (w : World) (m : Nat) (job : Job) (span : Nat) (d : Duration)
    (next : Bool → Activity (Except Error Measurement)) :
    (w.onlyErrand m ⟨job, span, .going (.pause d next)⟩ none).Reaches
      ({ w with now := (Activity.pauseEnd (w.conditions job span) w.now d).2 }.onlyErrand m
        ⟨job, span, .going (next (Activity.pauseEnd (w.conditions job span) w.now d).1)⟩ none) := by
  rw [pauseEnd_conditions]
  have hfirst := reaches_move w m ⟨job, span, .going (.pause d next)⟩
  have hle : w.now ≤ w.settings.clock.wake w.now d := Clock.le_wake
  cases hgiven : job.stop.given w.collector.shutdown with
  | true => simpa [moveRun, afterMove, pauseAnswer, hgiven] using hfirst
  | false =>
    by_cases hwake : w.settings.clock.wake w.now d = w.now
    · simpa [moveRun, afterMove, pauseAnswer, hgiven, hwake] using hfirst
    · have hwait : w.moveRun ⟨job, span, .going (.pause d next)⟩ =
          (.wait ⟨job, span, .pausing (w.settings.clock.wake w.now d) next⟩
            (.alarm (w.settings.clock.wake w.now d) (job.stop = .shutdown)), w) := by
        simp [moveRun, hgiven, hwake]
      rw [hwait] at hfirst
      have halarm := reaches_of_alarm w m
        ⟨job, span, .pausing (w.settings.clock.wake w.now d) next⟩
        (w.settings.clock.wake w.now d) (job.stop = .shutdown)
      rw [Nat.max_eq_right hle] at halarm
      have hend := reaches_move { w with now := w.settings.clock.wake w.now d } m
        ⟨job, span, .pausing (w.settings.clock.wake w.now d) next⟩
      have hcut : ({ w with now := w.settings.clock.wake w.now d } : World).pauseAnswer job
          (w.settings.clock.wake w.now d) = false := by simp [pauseAnswer, hgiven]
      simp only [moveRun, afterMove, hcut] at hend
      exact hfirst.trans (halarm.trans hend)

/-- The job of an errand is settled and reported with what its measurement came to, and
there is no task left. -/
structure Ended (w : World) (job : Job) (span : Nat)
    (outcome : Except Error Measurement × Activity.Progress) (w' : World) : Prop where
  slots : w'.slots = []
  reports : w'.reports = w.reports ++ [⟨job, w.settings.stopwatch job, outcome.1⟩]
  collector : w'.collector =
    { w.collector with telemetry := outcome.2.telemetry }.settle job span outcome.2.now outcome.1
      (w.settings.stopwatch job)

/-- The world `w'` is one exchange of the measurement further than `w`, and so is what the
measurement has seen. -/
theorem Ended.of_exchange {outcome : Except Error Measurement × Activity.Progress}
    (h : w'.Ended job span outcome u) (hs : w'.settings = w.settings)
    (hr : w'.reports = w.reports)
    (hc : ∀ t, { w'.collector with telemetry := t } = { w.collector with telemetry := t }) :
    w.Ended job span outcome u :=
  ⟨h.slots, by rw [h.reports, hs, hr], by rw [h.collector, hs, hc]⟩

/-- An errand goes through its measurement to the end, and is settled with the result.
What the measurement meets stays the same from one node to the next. -/
theorem errand_ends (m : Nat) (job : Job) (span : Nat) (x : Activity (Except Error Measurement))
    {c : Activity.Conditions} {w : World} {calls : List TimedCall}
    (h : (calls.map (·.call)).reverse = w.ended) (hc : w.conditions job span = c) :
    ∃ w', (w.onlyErrand m ⟨job, span, .going x⟩ none).Reaches w' ∧
      w.Ended job span (Activity.run c x ⟨w.now, calls, w.collector.telemetry⟩) w' := by
  induction x generalizing w calls with
  | done result => exact ⟨_, reaches_move w m _, rfl, rfl, rfl⟩
  | look path next ih =>
    subst hc
    obtain ⟨w', hreach, hend⟩ := ih (w.settings.surroundings.look path) h rfl
    exact ⟨w', (reaches_move w m _).trans ((reaches_of_look w m _).trans hreach), hend⟩
  | note n next ih =>
    subst hc
    let w₁ := w.onCollector (·.observe fun t => Activity.keep (some span) t n)
    obtain ⟨w', hreach, hend⟩ := ih (w := w₁) h rfl
    exact ⟨w', (reaches_move w m _).trans hreach, hend.of_exchange rfl rfl fun _ => rfl⟩
  | call k next ih =>
    subst hc
    rw [Activity.run, h]
    have hcalls : ((calls ++ [TimedCall.mk w.now k]).map (·.call)).reverse =
        (w.answered k).ended := by simp [answered, ← h]
    obtain ⟨w', hreach, hend⟩ := ih _ hcalls rfl
    exact ⟨w', (reaches_of_call w m job span k next).trans hreach,
      hend.of_exchange rfl rfl fun _ => rfl⟩
  | pause d next ih =>
    subst hc
    obtain ⟨w', hreach, hend⟩ := ih _
      (w := { w with now := (Activity.pauseEnd (w.conditions job span) w.now d).2 }) h rfl
    exact ⟨w', (reaches_of_pause w m job span d next).trans hreach,
      hend.of_exchange rfl rfl fun _ => rfl⟩

/-! ### Processing -/

/-- The world in which a job has been begun, with the errand for it. -/
def launch (w : World) (policy : RetryPolicy) (job : Job) : World :=
  (w.beginRun policy job).2.spawn (.errand (w.beginRun policy job).1)

/-- Processing the job ends in the world `w'`: however many steps are allowed, as long as
they are enough, and so if there is patience for them. -/
def EndsIn (w : World) (policy : RetryPolicy) (job : Job) (w' : World) : Prop :=
  ∃ n, (∀ fuel, n ≤ fuel → runErrands fuel (w.launch policy job) = w') ∧
    (n ≤ patience → w.process policy job = w')

/-- What the measurement of a job comes to when it runs by itself from where the world is.
Of the calls that have ended only their order is looked at. -/
def measured (w : World) (policy : RetryPolicy) (job : Job) :
    Except Error Measurement × Activity.Progress :=
  let (run, w) := w.beginRun policy job
  Activity.run (w.conditions job run.span) (Measurement.take policy job.kind job.timeout)
    ⟨w.now, w.ended.reverse.map (⟨w.now, ·⟩), w.collector.telemetry⟩

/-- A world in which no task is ready has settled. -/
theorem settleReady_of_nil (h : w.ready = []) : w.settleReady = w := by
  unfold settleReady
  cases patience with
  | zero => rfl
  | succ fuel =>
    rw [runWhile, h]
    rfl

/-- Where there is no other task, a job that is processed is begun, measured to the end
and settled with what the measurement came to. -/
theorem process_ends (w : World) (policy : RetryPolicy) (job : Job) (hs : w.slots = [])
    (hr : w.ready = []) : ∃ w', w.EndsIn policy job w' ∧
      (w.beginRun policy job).2.Ended job (w.beginRun policy job).1.span
        (w.measured policy job) w' := by
  have hlaunch : w.launch policy job =
      { (w.beginRun policy job).2 with spawned := w.spawned + 1 }.onlyErrand w.spawned
        (w.beginRun policy job).1 none := by
    simp [launch, spawn, beginRun, onlyErrand, hs, hr]
  have hcalls : ((w.ended.reverse.map (TimedCall.mk w.now)).map (·.call)).reverse = w.ended := by
    rw [List.map_map, List.map_reverse, List.reverse_reverse]
    exact List.map_id w.ended
  obtain ⟨w', ⟨n, hn⟩, hend⟩ := errand_ends w.spawned job (w.beginRun policy job).1.span
    (Measurement.take policy job.kind job.timeout)
    (w := { (w.beginRun policy job).2 with spawned := w.spawned + 1 }) hcalls rfl
  have hfuel : ∀ fuel, n ≤ fuel → runErrands fuel (w.launch policy job) = w' := by
    intro fuel hle
    obtain ⟨spare, rfl⟩ := Nat.exists_eq_add_of_le hle
    rw [hlaunch]
    exact (hn spare).trans (runErrands_of_nil hend.slots spare)
  refine ⟨w', ⟨n, hfuel, fun hle => ?_⟩, hend.of_exchange rfl rfl fun _ => rfl⟩
  rw [process, settleReady_of_nil hr]
  exact hfuel patience hle

/-- What a measurement comes to that runs by itself is the end of one of its traces. -/
theorem trace_measured (w : World) (policy : RetryPolicy) (job : Job) :
    ∃ xs, (Measurement.take policy job.kind job.timeout).Trace xs (w.measured policy job).1 := by
  obtain ⟨xs, h, -⟩ := Activity.run_trace _ (Measurement.take policy job.kind job.timeout) _
  exact ⟨xs, h⟩

end World

/-! ### Among other tasks -/

/-- What is left of an activity after an exchange comes to no other results. -/
theorem Activity.Next.trace {α : Type} {x y : Activity α} (h : x.Next y) {ys : List Exchange}
    {a : α} (ht : y.Trace ys a) : ∃ xs, x.Trace xs a := by
  cases h with
  | look path next status => exact ⟨_, .look status ht⟩
  | call c next answer => exact ⟨_, .call answer ht⟩
  | pause length next cut => exact ⟨_, .pause cut ht⟩
  | note n next => exact ⟨_, .note ht⟩

/-- An activity comes to an end whatever it is answered. -/
theorem Activity.acc_next {α : Type} (x : Activity α) : Acc (fun y x => x.Next y) x := by
  induction x with
  | done a => exact ⟨_, nofun⟩
  | look path next ih => exact ⟨_, fun | _, .look _ _ status => ih status⟩
  | call c next ih => exact ⟨_, fun | _, .call _ _ answer => ih answer⟩
  | pause length next ih => exact ⟨_, fun | _, .pause _ _ cut => ih cut⟩
  | note n next ih => exact ⟨_, fun | _, .note _ _ => ih⟩

namespace Engine

variable {r : Routine} {s s' : Engine} {e : Act} {c : Category} {job other : Job}
  {acts : List Act}

/-- Where a worker stands that is at a job: it has not begun it yet, or it measures it, and
whatever the rest of the measurement may come to, the whole one may come to. -/
inductive Underway (r : Routine) (job : Job) : WorkerStage → Prop
  | holding : Underway r job (.holding job)
  | measuring (span : Nat) (rest : Activity (Except Error Measurement))
      (h : ∀ ys result, rest.Trace ys result →
        ∃ xs, (Measurement.take r.policy job.kind job.timeout).Trace xs result) :
      Underway r job (.measuring job span rest)

theorem Underway.jobs {w : WorkerStage} (h : Underway r job w) : w.jobs = [job] := by
  cases h <;> rfl

/-- A worker stays at its job until it settles it. -/
theorem Step.underway (h : Step r s e s') (hu : Underway r job (s.worker c))
    (he : ∀ other, e ≠ .settle c other) : Underway r job (s'.worker c) := by
  cases h.turn c with
  | away _ hw => rwa [hw]
  | idle _ hj _ => cases hj.symm.trans hu.jobs
  | take other _ hw hw' =>
    rw [hw] at hu
    cases hu
  | begin other span _ hw hw' =>
    rw [hw] at hu
    cases hu
    rw [hw']
    exact .measuring span _ fun ys _ ht => ⟨ys, ht⟩
  | goOn other span before rest _ _ hw hw' hn =>
    rw [hw] at hu
    cases hu with
    | measuring _ _ hbefore =>
      rw [hw']
      refine .measuring span rest fun ys result ht => ?_
      obtain ⟨xs, hxs⟩ := hn.trace ht
      exact hbefore xs result hxs
  | settle other hset => exact absurd hset (he other)

/-- A worker that held a job is at it as long as it has not settled it. -/
theorem underway_of_leads (hl : Leads (Step r) s acts s') (hw : s.worker c = .holding job)
    (he : ∀ other, .settle c other ∉ acts) : Underway r job (s'.worker c) := by
  induction hl with
  | refl =>
    rw [hw]
    exact .holding
  | @step acts s₁ s₂ e _ hs ih =>
    refine hs.underway (ih fun other hmem => he other (List.mem_cons_of_mem e hmem)) ?_
    rintro other rfl
    exact he other List.mem_cons_self

/-- A job is settled with a result that its measurement may come to. -/
theorem settle_of_underway (hu : Underway r job (s.worker c))
    (h : Step r s (.settle c other) s') : other = job ∧ ∃ xs result span now duration,
      (Measurement.take r.policy job.kind job.timeout).Trace xs result ∧
      s'.collector = s.collector.settle job span now result duration := by
  cases h with
  | @settle _ _ span result now duration hw =>
    rw [worker, hw] at hu
    cases hu with
    | measuring _ _ hbefore =>
      obtain ⟨xs, hxs⟩ := hbefore [] result (.done result)
      exact ⟨rfl, xs, result, span, now, duration, hxs, rfl⟩

/-! ### Courses without an end -/

theorem Step.worker_of_away (h : Step r s e s') (he : e.worker? ≠ some c) :
    s'.worker c = s.worker c := by
  cases h with
  | ready | idle | take | begin | look | call | pause | note | settle | stop | finish =>
    refine PerCategory.get_set_of_ne _ _ ?_
    rintro rfl
    exact he rfl
  | _ => rfl

/-- A worker that is at a job either settles it by its next act or measures it afterwards,
and has less of the measurement left if it had begun before. -/
theorem Step.at_job (h : Step r s e s') (he : e.worker? = some c)
    (hj : (s.worker c).jobs = [job]) : e = .settle c job ∨ ∃ span rest,
      s'.worker c = .measuring job span rest ∧ (s.worker c = .holding job ∨
        ∃ before, s.worker c = .measuring job span before ∧ before.Next rest) := by
  cases h.turn c with
  | away hother _ => exact absurd he hother
  | idle _ hnone _ => cases hnone.symm.trans hj
  | take _ _ hw _ => rw [hw] at hj; cases hj
  | begin _ span _ hw hw' =>
    rw [hw] at hj
    cases hj
    exact .inr ⟨span, _, hw', .inl hw⟩
  | goOn _ span before rest _ _ hw hw' hnext =>
    rw [hw] at hj
    cases hj
    exact .inr ⟨span, rest, hw', .inr ⟨before, hw, hnext⟩⟩
  | settle _ hset hat _ _ =>
    cases hat.symm.trans hj
    exact .inl hset

/-- A course of the engine without an end, in which the worker of the category acts again
whenever it is at a job. -/
structure Endless (r : Routine) (c : Category) (s : Nat → Engine) (e : Nat → Act) : Prop where
  step : ∀ n, Step r (s n) (e n) (s (n + 1))
  acts : ∀ n, ((s n).worker c).jobs ≠ [] → ∃ m, n ≤ m ∧ (e m).worker? = some c

namespace Endless

variable {s : Nat → Engine} {e : Nat → Act}

theorem leads (h : Endless r c s e) (n : Nat) :
    Leads (Step r) (s 0) ((List.range n).map e).reverse (s n) := by
  induction n with
  | zero => exact .refl
  | succ n ih =>
    rw [List.range_succ, List.map_append, List.reverse_append]
    exact ih.step (h.step n)

/-- What a worker is at does not change before its next act. -/
theorem exists_act (h : Endless r c s e) (n : Nat) (hj : ((s n).worker c).jobs ≠ []) :
    ∃ m, (e m).worker? = some c ∧ (s m).worker c = (s n).worker c := by
  obtain ⟨m, hle, hm⟩ := h.acts n hj
  obtain ⟨k, rfl⟩ := Nat.exists_eq_add_of_le hle
  induction k generalizing n with
  | zero => exact ⟨n, hm, rfl⟩
  | succ k ih =>
    by_cases he : (e n).worker? = some c
    · exact ⟨n, he, rfl⟩
    · have hstay := (h.step n).worker_of_away he
      rw [← hstay] at hj ⊢
      exact ih (n + 1) hj (Nat.le_add_right _ _) (by rwa [Nat.add_right_comm])

/-- A worker that measures a job settles it, as every act of its own leaves less of the
measurement. -/
theorem settles_of_measuring (h : Endless r c s e) {span : Nat}
    {x : Activity (Except Error Measurement)} (n : Nat)
    (hw : (s n).worker c = .measuring job span x) : ∃ m, e m = .settle c job := by
  induction x.acc_next generalizing n with
  | intro x _ ih =>
    have hj : ((s n).worker c).jobs = [job] := by rw [hw]; rfl
    obtain ⟨m, hact, hstay⟩ := h.exists_act n (hj ▸ List.cons_ne_nil _ _)
    rw [← hstay] at hw hj
    rcases (h.step m).at_job hact hj with
      hset | ⟨_, rest, hrest, hhold | ⟨before, hbefore, hnext⟩⟩
    · exact ⟨m, hset⟩
    · cases hhold.symm.trans hw
    · cases hbefore.symm.trans hw
      exact ih rest hnext (m + 1) hrest

/-- A worker that holds a job begins it, and settles it. -/
theorem settles_of_holding (h : Endless r c s e) (n : Nat) (hw : (s n).worker c = .holding job) :
    ∃ m, e m = .settle c job := by
  have hj : ((s n).worker c).jobs = [job] := by rw [hw]; rfl
  obtain ⟨m, hact, hstay⟩ := h.exists_act n (hj ▸ List.cons_ne_nil _ _)
  rcases (h.step m).at_job hact (hstay ▸ hj) with hset | ⟨_, _, hrest, -⟩
  · exact ⟨m, hset⟩
  · exact h.settles_of_measuring (m + 1) hrest

/-- The job that a worker holds at the start is the first one that it settles. -/
theorem exists_settle (h : Endless r c s e) (hw : (s 0).worker c = .holding job) :
    ∃ m, e m = .settle c job ∧ ∀ n < m, ∀ other, e n ≠ .settle c other := by
  classical
  have hex : ∃ m other, e m = .settle c other := by
    obtain ⟨m, hm⟩ := h.settles_of_holding 0 hw
    exact ⟨m, job, hm⟩
  have hfirst : ∀ n < Nat.find hex, ∀ other, e n ≠ .settle c other :=
    fun n hn other hset => Nat.find_min hex hn ⟨other, hset⟩
  obtain ⟨other, hset⟩ := Nat.find_spec hex
  have hunderway : Underway r job ((s (Nat.find hex)).worker c) := by
    refine underway_of_leads (h.leads _) hw fun other' hmem => ?_
    obtain ⟨n, hn, hsame⟩ := List.mem_map.1 (List.mem_reverse.1 hmem)
    exact hfirst n (List.mem_range.1 hn) other' hsame
  obtain ⟨rfl, -⟩ := settle_of_underway hunderway (hset ▸ h.step _)
  exact ⟨_, hset, hfirst⟩

end Endless

end Engine

end DiskWatch
