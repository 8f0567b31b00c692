/-
DiskWatch/Proofs/Limits.lean

What a configuration may ask for too much.  The check bounds its numbers from below
and not from above, and each of them is put to a use that has a limit of its own.

A queue is built unless its capacity is beyond the greatest one (`queues?_of_check`).
The timers of the targets start and go on until a shutdown is requested, unless they
lose a beat (`moveTimer_of_pos`), and pauses stop at the greatest length of time
(`nanos_delayAfter`).  The deadline of a watchdog is the sum of an instant, a timeout
and a grace.  A watchdog begins if the clock can show that sum, and fails if it cannot
(`begin?_eq_none_iff`); its timeout is that of a target of the configuration
(`Run.target_of_drawn`).  One that has begun fails only at the end of the clock
(`limit_le_of_falter`).

Main result: queues, deadlines and beats that are noticed too late are all that can fail
in a configuration that was accepted, and when they do (`checked_within_limits`).  The
first two do (`checked_beyond_limits`).
-/
import DiskWatch.Proofs.Shutdown

namespace DiskWatch

/-! ### Queues -/

/-- The queues of a configuration that was accepted have the capacity that it asks for,
if that is not beyond the greatest one. -/
theorem Daemon.queues?_of_check {c : Config} (h : c.check = .ok ()) :
    Daemon.queues? c = if c.queueCapacity.toNat ≤ greatestCapacity then
      some (.both ⟨c.queueCapacity.toNat, [], true, 1⟩) else none := by
  obtain ⟨-, hcapacity, -, -⟩ := c.check_eq_ok_iff.1 h
  have hpos : 1 ≤ c.queueCapacity.toNat := by
    refine Nat.one_le_iff_ne_zero.2 fun hzero => hcapacity ?_
    exact UInt64.toNat_inj.1 hzero
  rw [queues?, Queue.build?, Nat.max_eq_right hpos]
  split <;> rfl

/-! ### Timers -/

namespace Config

variable {c : Config} {t : Target}

theorem minPeriod_le_of_mem (ht : t ∈ c.targets) :
    minPeriod ≤ t.interval ∧ minPeriod ≤ t.timeout := by
  rw [targets, List.mem_append] at ht
  rcases ht with ht | ht
  all_goals
    obtain ⟨entry, -, rfl⟩ := List.mem_map.1 ht
    exact ⟨c.minPeriod_le_interval _, minPeriod_le_timeout _ _⟩

theorem interval_pos (ht : t ∈ c.targets) : 0 < t.interval.nanos :=
  Nat.lt_of_lt_of_le (by decide) (minPeriod_le_of_mem ht).1

end Config

/-- The beat of a timer comes so late that it counts as missed, and the clock cannot show
the instant one interval from now. -/
def World.LosesBeat (w : World) (t : Target) (due : Option Instant) : Prop :=
  ∃ u, due = some u ∧ w.beatComes u = true ∧ u + Clock.tolerance < w.now ∧
    w.settings.clock.limit ≤ w.now + t.interval.nanos

/-- A timer with an interval goes on until a shutdown is requested, unless it loses a beat. -/
theorem World.moveTimer_of_pos {t : Target} (ht : 0 < t.interval.nanos) {w : World}
    (hf : w.collector.shutdown = false) (due : Option Instant) :
    (¬w.LosesBeat t due → ∃ next, (w.moveTimer t due).1 = .goOn (.timer t (some next)) ∨
      ∃ wait, (w.moveTimer t due).1 = .wait (.timer t (some next)) wait) ∧
    (w.LosesBeat t due → (w.moveTimer t due).1 = .over) := by
  unfold moveTimer
  cases due with
  | none =>
    dsimp only
    rw [if_neg (Nat.ne_of_gt ht)]
    exact ⟨fun _ => ⟨_, .inl rfl⟩, fun ⟨_, hdue, _⟩ => nomatch hdue⟩
  | some u =>
    simp only [hf, Bool.false_eq_true, if_false]
    by_cases hb : w.beatComes u = true
    · rw [if_pos hb]
      cases hnext : w.settings.clock.nextBeat? .delay u w.now t.interval with
      | none =>
        have hlost := Clock.nextBeat?_delay_eq_none_iff.1 hnext
        exact ⟨fun hkept => absurd ⟨u, rfl, hb, hlost⟩ hkept, fun _ => rfl⟩
      | some next =>
        refine ⟨fun _ => ⟨next, .inl rfl⟩, ?_⟩
        rintro ⟨_, ⟨⟩, -, hlost⟩
        rw [Clock.nextBeat?_delay_eq_none_iff.2 hlost] at hnext
        cases hnext
    · rw [if_neg hb]
      refine ⟨fun _ => ⟨u, .inr ⟨_, rfl⟩⟩, ?_⟩
      rintro ⟨_, ⟨⟩, hcomes, -⟩
      exact absurd hcomes hb

/-! ### Attempts -/

/-- There are as many attempts as the configuration asks for. -/
theorem Config.attempts_of_check {c : Config} (h : c.check = .ok ()) :
    c.retryPolicy.attempts = c.retry.maxAttempts.toNat := by
  obtain ⟨-, -, hattempts, -⟩ := c.check_eq_ok_iff.1 h
  refine Nat.max_eq_right (Nat.one_le_iff_ne_zero.2 fun hzero => hattempts ?_)
  exact UInt32.toNat_inj.1 hzero

/-! ### Deadlines -/

/-- A watchdog cannot begin if the clock cannot show its deadline, and in no other case. -/
theorem Watch.begin?_eq_none_iff {r : Routine} (hp : 0 < r.poll.nanos) {timeout : Duration}
    {now : Instant} : begin? r timeout now = none ↔
      r.clock.limit ≤ now + timeout.nanos + r.grace.nanos := by
  rw [begin?]
  simp only [Option.bind_eq_bind, if_neg (Nat.ne_of_gt hp)]
  cases ht : r.clock.later? now timeout with
  | none =>
    have hlimit := Clock.later?_eq_none_iff.1 ht
    exact iff_of_true rfl (Nat.le_trans hlimit (Nat.le_add_right _ _))
  | some t =>
    obtain ⟨-, rfl⟩ : _ ∧ now + timeout.nanos = t := by
      simpa [Clock.later?] using ht
    rw [Option.bind_some, ← Clock.later?_eq_none_iff]
    cases r.clock.later? (now + timeout.nanos) r.grace with
    | none => exact iff_of_true rfl rfl
    | some deadline => exact iff_of_false (Option.some_ne_none _) (Option.some_ne_none _)

namespace Engine

variable {ok : Engine → Act → Prop} {r : Routine} {n : Nat} {past : List Act} {s : Engine}
  {job : Job}

/-- What was done was a step, and not later than now. -/
theorem exists_step_of_mem (h : RunUnder ok r n past s) {e : Act} (he : e ∈ past) :
    ∃ s₁ s₂, Step r s₁ e s₂ ∧ s₁.now ≤ s.now := by
  induction h with
  | start => cases he
  | step _ hs _ ih =>
    rcases List.mem_cons.1 he with rfl | he
    · exact ⟨_, _, hs, hs.now_le⟩
    · obtain ⟨s₁, s₂, hs₁, hle⟩ := ih he
      exact ⟨s₁, s₂, hs₁, Nat.le_trans hle hs.now_le⟩

/-- Where a watchdog could not begin the clock could not show its deadline. -/
theorem limit_le_of_faint (h : RunUnder ok r n past s) (hp : 0 < r.poll.nanos)
    (hf : .faint job ∈ past) :
    r.clock.limit ≤ s.now + job.timeout.nanos + r.grace.nanos := by
  obtain ⟨s₁, _, hs, hle⟩ := exists_step_of_mem h hf
  cases hs with
  | faint _ hw =>
    refine Nat.le_trans ((Watch.begin?_eq_none_iff hp).1 hw) ?_
    exact Nat.add_le_add_right (Nat.add_le_add_right hle _) _

/-- Where a watchdog could not go on the clock could not show the instant of its next look. -/
theorem limit_le_of_falter (h : RunUnder ok r n past s) (hf : .falter job ∈ past) :
    r.clock.limit ≤ s.now + r.poll.nanos := by
  obtain ⟨s₁, _, hs, hle⟩ := exists_step_of_mem h hf
  cases hs with
  | falter _ hg => exact Nat.le_trans (of_glance hg).2.2.2 (Nat.add_le_add_right hle _)

/-- A watchdog that has not begun begins now, if the clock can show its deadline, and
ends abnormally if it cannot. -/
theorem enabled_of_unbegun (hp : 0 < r.poll.nanos) (hx : ⟨job, none⟩ ∈ s.sentries) :
    (Enabled r s (.faint job) ↔ r.clock.limit ≤ s.now + job.timeout.nanos + r.grace.nanos) ∧
    (Enabled r s (.awake job s.now) ↔
      s.now + job.timeout.nanos + r.grace.nanos < r.clock.limit) := by
  obtain ⟨others, hs⟩ := Multiset.exists_cons_of_mem hx
  rw [← Nat.not_le, ← Watch.begin?_eq_none_iff hp]
  constructor
  · constructor
    · rintro ⟨_, hstep⟩
      cases hstep with
      | faint _ hw => exact hw
    · exact fun hw => ⟨_, .faint hs hw⟩
  · constructor
    · rintro ⟨_, hstep⟩ hnone
      cases hstep with
      | awake _ hw => cases hw.symm.trans hnone
    · intro hw
      obtain ⟨w, hw⟩ := Option.ne_none_iff_exists'.1 hw
      exact ⟨_, .awake hs hw⟩

theorem drawn_of_faint (h : RunUnder ok r n past s) (hf : .faint job ∈ past) :
    job ∈ jobs Act.drawn? past := by
  refine drawn_of_dispatched h ?_
  have hmem : job ∈ (jobs Act.fainted? past : Multiset Job) := mem_jobs.2 ⟨_, hf, rfl⟩
  rw [← Multiset.mem_coe, dispatched_eq h]
  exact Multiset.mem_add.2 (.inr (Multiset.mem_add.2 (.inl hmem)))

theorem drawn_of_sentry (h : RunUnder ok r n past s) {x : Sentry} (hx : x ∈ s.sentries) :
    x.job ∈ jobs Act.drawn? past :=
  drawn_of_dispatched h (mem_watched.1 (watched_of_sentry h hx)).1

end Engine

/-! ### The jobs of the daemon -/

namespace Service

open Engine (jobs)

variable {r : Routine} {config : Config} {past : List Act} {s s' : Service} {e : Act}
  {chores : List Chore} {job : Job}

/-- What the daemon has left to do, and what its loops do, is on this list. -/
structure Commissioned (chores : List Chore) (s : Service) : Prop where
  left : ∀ x ∈ s.chores, x ∈ chores
  started : ∀ l ∈ s.loops, .spawn l.duty ∈ chores

theorem Step.commissioned (h : Step r s e s') (hs : s.Commissioned chores) :
    s'.Commissioned chores := by
  -- a loop that goes on keeps its duty
  have hset : ∀ {i : Nat} {d : Duty} {l : Loop} (stage : LoopStage), s.loops[i]? = some l →
      l.duty = d → ∀ x ∈ s.loops.set i ⟨d, stage⟩, .spawn x.duty ∈ chores := by
    rintro i _ l stage hl rfl x hx
    rcases List.mem_or_eq_of_mem_set hx with hx | rfl
    · exact hs.started x hx
    · exact hs.started l (List.mem_of_getElem? hl)
  cases h with
  | register hc _ =>
    exact ⟨fun x hx => hs.left x (hc ▸ List.mem_cons_of_mem _ hx), hs.started⟩
  | spawn hc =>
    refine ⟨fun x hx => hs.left x (hc ▸ List.mem_cons_of_mem _ hx), fun l hl => ?_⟩
    rcases List.mem_append.1 hl with hl | hl
    · exact hs.started l hl
    · rw [List.mem_singleton.1 hl]
      exact hs.left _ (hc ▸ List.mem_cons_self)
  | own _ _ => exact ⟨hs.left, hs.started⟩
  | wake hl _ | stop hl _ | fail hl => exact ⟨hs.left, hset _ hl rfl⟩
  | deed hl _ _ => exact ⟨hs.left, hset _ hl rfl⟩
  | conclude => exact ⟨hs.left, hs.started⟩

theorem Run.commissioned (h : Run r config past s) : s.Commissioned config.chores := by
  induction h with
  | start => exact ⟨fun _ hx => hx, nofun⟩
  | step _ hs ih => exact hs.commissioned ih

/-- A loop that ticks has a target of the configuration. -/
theorem Run.target_of_loop (h : Run r config past s) {t : Target} {stage : LoopStage}
    (hl : ⟨.tick t, stage⟩ ∈ s.loops) : t ∈ config.targets := by
  have hmem := h.commissioned.started _ hl
  simpa [Config.chores] using hmem

/-- Every job is made for a target of the configuration. -/
theorem Run.target_of_drawn (h : Run r config past s)
    (hj : job ∈ jobs Engine.Act.drawn? (engineActs past)) :
    ∃ t ∈ config.targets, job = .ofTarget t job.id job.cycle .shutdown := by
  induction h with
  | start => cases hj
  | @step past s s' e h hs ih =>
    -- the job was drawn before, or this is the loop that draws it
    obtain ⟨a, ha, hdraw⟩ := Engine.mem_jobs.1 hj
    obtain ⟨e', he', hea⟩ := List.mem_filterMap.1 ha
    rcases List.mem_cons.1 he' with rfl | hpast
    · cases hs with
      | register => cases hea; cases hdraw
      | own hown _ =>
        cases hea
        cases a with
        | draw => cases hown
        | _ => cases hdraw
      | deed hl hd _ =>
        cases hea
        cases hd with
        | draw t job' hjob =>
          cases hdraw
          exact ⟨t, h.target_of_loop (List.mem_of_getElem? hl), hjob⟩
        | goOn _ _ _ _ _ he | finish _ _ _ _ he =>
          cases a with
          | draw => cases he
          | _ => cases hdraw
        | _ => cases hdraw
      | _ => cases hea
    · exact ih (Engine.mem_jobs.2 ⟨a, List.mem_filterMap.2 ⟨e', hpast, hea⟩, hdraw⟩)

end Service

/-! ### What an accepted configuration can be run with -/

open Service (engineActs)

/-- Take a configuration that was accepted.
Its queues have the capacity that it asks for, or cannot be built because that is
beyond the greatest capacity.
Its timers start, and none ends before a shutdown is requested, except one that notices
a beat more than five milliseconds too late at an instant from which the clock cannot
show its interval.
There are as many attempts as it asks for, fewer than 2^32, and each pause is what it
should be or the greatest length of time.
The deadline of a watchdog is the instant at which it begins, the timeout of a target
and the grace.  In every run of the daemon, a watchdog that has not begun can begin now
if the clock can show its deadline, and can fail now if it cannot; and where one has
failed before it began, the clock could not.  One that has begun fails only where the
clock cannot show the instant of its next look. -/
theorem checked_within_limits {c : Config} (h : c.check = .ok ()) {r : Routine}
    (hp : 0 < r.poll.nanos) :
    (Daemon.queues? c = if c.queueCapacity.toNat ≤ greatestCapacity then
      some (.both ⟨c.queueCapacity.toNat, [], true, 1⟩) else none) ∧
    (∀ t ∈ c.targets, ∀ w : World, w.collector.shutdown = false → ∀ due,
      (¬w.LosesBeat t due → ∃ next, (w.moveTimer t due).1 = .goOn (.timer t (some next)) ∨
        ∃ wait, (w.moveTimer t due).1 = .wait (.timer t (some next)) wait) ∧
      (w.LosesBeat t due → (w.moveTimer t due).1 = .over)) ∧
    (c.retryPolicy.attempts = c.retry.maxAttempts.toNat ∧ c.retryPolicy.attempts < 2 ^ 32 ∧
      ∀ attempt, (c.retryPolicy.delayAfter attempt).nanos =
        min (c.retry.initialDelaySecs.toNat * nanosPerSecond * 2 ^ min (attempt - 1) 16)
          Duration.maxNanos) ∧
    ∀ (past : List Service.Act) (s : Service), Service.Run r c past s →
      (∀ job, .faint job ∈ engineActs past → ∃ t ∈ c.targets, job.timeout = t.timeout ∧
        r.clock.limit ≤ s.engine.now + t.timeout.nanos + r.grace.nanos) ∧
      (∀ job, .falter job ∈ engineActs past →
        r.clock.limit ≤ s.engine.now + r.poll.nanos) ∧
      ∀ job, ⟨job, none⟩ ∈ s.engine.sentries → ∃ t ∈ c.targets, job.timeout = t.timeout ∧
        (Engine.Enabled r s.engine (.faint job) ↔
          r.clock.limit ≤ s.engine.now + t.timeout.nanos + r.grace.nanos) ∧
        (Engine.Enabled r s.engine (.awake job s.engine.now) ↔
          s.engine.now + t.timeout.nanos + r.grace.nanos < r.clock.limit) := by
  have hattempts := Config.attempts_of_check h
  refine ⟨Daemon.queues?_of_check h, fun t ht w hf => ?_, ⟨hattempts, ?_, fun attempt => ?_⟩,
    fun past s hrun => ⟨fun job hjob => ?_, fun job hjob => ?_, fun job hjob => ?_⟩⟩
  · exact World.moveTimer_of_pos (Config.interval_pos ht) hf
  · rw [hattempts]
    exact c.retry.maxAttempts.toNat_lt
  · rw [c.retryPolicy.nanos_delayAfter, Nat.shiftLeft_eq]
    rfl
  · obtain ⟨t, ht, heq⟩ := hrun.target_of_drawn (Engine.drawn_of_faint hrun.engine hjob)
    have htimeout : job.timeout = t.timeout := congrArg Job.timeout heq
    exact ⟨t, ht, htimeout, htimeout ▸ Engine.limit_le_of_faint hrun.engine hp hjob⟩
  · exact Engine.limit_le_of_falter hrun.engine hjob
  · obtain ⟨t, ht, heq⟩ := hrun.target_of_drawn (Engine.drawn_of_sentry hrun.engine hjob)
    have htimeout : job.timeout = t.timeout := congrArg Job.timeout heq
    exact ⟨t, ht, htimeout, htimeout ▸ Engine.enabled_of_unbegun hp hjob⟩

/-- One file system, and queues of this capacity. -/
def roomyConfig (capacity : UInt64) : Config :=
  { Engine.singleConfig 20 with queueCapacity := capacity }

theorem check_roomyConfig {capacity : UInt64} (h : capacity ≠ 0) :
    (roomyConfig capacity).check = .ok () := by
  have hsingle : (Engine.singleConfig 20).check = .ok () := rfl
  rw [Config.check_eq_ok_iff] at hsingle ⊢
  exact ⟨hsingle.1, h, hsingle.2.2⟩

/-- The greatest capacity is not too much. -/
theorem checked_within_limits_of_greatest :
    (roomyConfig 2305843009213693951).check = .ok () ∧ 0 < Routine.standard.poll.nanos ∧
      Daemon.queues? (roomyConfig 2305843009213693951) =
        some (.both ⟨2305843009213693951, [], true, 1⟩) := by
  have hcheck : (roomyConfig 2305843009213693951).check = .ok () := check_roomyConfig (by decide)
  refine ⟨hcheck, by decide, ?_⟩
  exact (checked_within_limits (r := .standard) hcheck (by decide)).1

/-- An accepted configuration may ask for queues that cannot be built, and for a
watchdog that fails. -/
theorem checked_beyond_limits :
    ((roomyConfig 2305843009213693952).check = .ok () ∧
      Daemon.queues? (roomyConfig 2305843009213693952) = none) ∧
    (Engine.singleConfig 9223372036854775807).check = .ok () ∧
      ∃ past s job, Service.Run .standard (Engine.singleConfig 9223372036854775807) past s ∧
        .faint job ∈ engineActs past := by
  obtain ⟨past, s, job, h, -, -, hsen, hnow, -, -, hout, -⟩ :=
    Service.exists_cutShort .standard 9223372036854775807
  have hbegin : Watch.begin? .standard job.timeout s.engine.now = none := by
    rw [hout, hnow]
    rfl
  exact ⟨⟨check_roomyConfig (by decide), rfl⟩, rfl, _, _, job,
    h.step (.own rfl (.faint hsen hbegin)), List.mem_cons_self⟩

end DiskWatch
