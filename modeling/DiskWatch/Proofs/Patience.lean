/-
DiskWatch/Proofs/Patience.lean

Whether a watchdog waits long enough.  It waits for the timeout of its job and a
grace.  A measurement may take longer than that: `df` has a limit of its own, which
the timeout of the job does not shorten, and a failed call is repeated after a
pause.  What a measurement takes at most is `Measurement.longest`.

Below the patience of its watchdog a job that is taken out at once is settled before
the deadline, and the watchdog does not give up (`not_timedOut`).  The next look is
never far (`look_ahead`), so the watchdog closes soon after the deadline at the
latest (`completed_in_time`).  A call may take all the time that it has
(`exists_answered`).  With the times of a configuration, which are multiples
of half a second, the measure is exact: from the patience of the watchdog on there is
a run in which it gives up (`no_false_alarm`).
-/
import DiskWatch.Config.Load
import DiskWatch.Proofs.Overrun

namespace DiskWatch

namespace Engine

variable {ok : Engine → Act → Prop} {r : Routine} {n : Nat} {past later earlier : List Act}
  {s s' : Engine} {e : Act} {c : Category} {job : Job} {b t stop : Instant}

/-! ### The order of instants -/

theorem clockAt_le (h : RunUnder ok r n (later ++ earlier) s) : clockAt earlier ≤ s.now := by
  induction later generalizing s with
  | nil => exact Nat.le_of_eq (clockAt_eq h)
  | cons e later ih =>
    cases h with
    | step h hs _ => exact Nat.le_trans (ih h) hs.now_le

/-- What happened in a run happened in its first part, or after it. -/
theorem Happened.of_append (ht : Happened (later ++ earlier) e t)
    (h : RunUnder ok r n (later ++ earlier) s) : Happened earlier e t ∨ clockAt earlier ≤ t := by
  induction later generalizing s with
  | nil => exact .inl ht
  | cons a later ih =>
    cases h with
    | step h hs _ =>
      obtain ⟨after, before, heq, rfl⟩ := ht
      cases after with
      | nil =>
        right
        obtain ⟨-, rfl⟩ := List.cons.inj heq
        rw [clockAt_eq h]
        exact clockAt_le h
      | cons a' after =>
        obtain ⟨-, heq⟩ := List.cons.inj heq
        exact ih ⟨after, before, heq, rfl⟩ h

/-- A watchdog begins after its job was put into the queue. -/
theorem enqueued_le (h : RunUnder ok r n past s) (henqueue : Happened past (.enqueue job none) t)
    (hb : .awake job b ∈ past) : t ≤ b := by
  obtain ⟨later, earlier, rfl, rfl⟩ := henqueue
  rcases List.mem_append.1 hb with hb | hb
  · obtain ⟨after, before, rfl⟩ := List.append_of_mem hb
    rw [List.append_assoc, List.cons_append] at h
    obtain ⟨s₁, s₂, h₁, hs⟩ := h.split
    cases hs with
    | awake =>
      rw [← List.singleton_append, ← List.append_assoc] at h₁
      exact clockAt_le h₁
  · -- the job would have been put in twice
    obtain ⟨s₁, s₂, h₁, hs⟩ := h.split
    have hbefore : .awake job b ∈ earlier := (List.mem_cons.1 hb).resolve_left nofun
    have haccepted := accepted_of_dispatched h₁ (dispatched_of_awake h₁ hbefore)
    exact absurd haccepted (notMem_of_nodup (accepted_nodup (h₁.run.step hs trivial)) rfl)

/-! ### The next look -/

/-- An alarm that is not late leaves time to notice the beat. -/
theorem early_of_le_alarm (hg : 0 < r.clock.grain) (hgrain : r.clock.grain ≤ Clock.tolerance)
    (h : t ≤ r.clock.alarm b) : t ≤ b + Clock.tolerance :=
  Nat.le_trans h (Nat.le_trans (Nat.le_of_lt (Clock.alarm_lt hg)) (Nat.add_le_add_left hgrain b))

/-- A watchdog looks again before it is a period too late, and time does not pass
beyond that look. -/
theorem look_ahead (h : RunUnder (Prompt r) r n past s) (hd : Distinct past)
    (hg : 0 < r.clock.grain) (hgrain : r.clock.grain ≤ Clock.tolerance) {x : Sentry}
    (hx : x ∈ s.sentries) {w : Watch} (hw : x.watch = some w) (hshown : Shown r x.job w.began) :
    w.due < deadline r x.job w.began + r.poll.nanos ∧ s.now ≤ r.clock.alarm w.due := by
  induction h generalizing x w with
  | start => cases hx
  | @step past s s' e h hs hp ih =>
    have ih := @ih hd.of_cons
    cases hs.sentry h hx with
    | kept hx he =>
      obtain ⟨hdue, hnow⟩ := ih hx hw hshown
      refine ⟨hdue, ?_⟩
      by_cases helapse : ∃ t, e = .elapse t
      · obtain ⟨t, rfl⟩ := helapse
        obtain ⟨w', hw', -, hle⟩ := hp t rfl x hx
        obtain rfl : w = w' := Option.some.inj (hw.symm.trans hw')
        cases hs
        exact hle
      · rw [hs.now_eq fun t ht => helapse ⟨t, ht⟩]
        exact hnow
    | posted he hnone =>
      rw [hw] at hnone
      cases hnone
    | awoke w' he hw' hsen hbegin =>
      obtain rfl : w = w' := Option.some.inj (hw.symm.trans hw')
      obtain ⟨rfl, hpoll⟩ := begin?_eq_some hbegin
      have hbegan : s.now ≤ deadline r x.job s.now := le_deadline r x.job s.now
      have hlt : s.now < deadline r x.job s.now + r.poll.nanos :=
        Nat.lt_of_le_of_lt hbegan (Nat.lt_add_of_pos_right hpoll)
      refine ⟨hlt, ?_⟩
      rw [hs.now_eq (by simp [he])]
      exact Clock.le_alarm hg (Nat.le_trans (Nat.le_of_lt hlt) hshown.1)
    | looked w' due he hw' hsen hagain =>
      obtain rfl : w = { w' with due := due } := Option.some.inj (hw.symm.trans hw')
      obtain ⟨hdue, hnow⟩ := ih hsen rfl hshown
      obtain ⟨-, halarm, -, hbefore, hnext⟩ := of_glance hagain
      have hwatching : Watching r past s x.job w' := vigil h hd.of_cons _ hsen
      rw [hwatching.deadline_eq] at hbefore
      -- the look was not early
      have hlast : w'.due ≤ s.now :=
        Nat.le_trans (Clock.le_alarm hg (Nat.le_trans (Nat.le_of_lt hdue) hshown.1)) halarm
      have hlimit : w'.due + r.poll.nanos < r.clock.limit :=
        Nat.lt_trans (Nat.add_lt_add_right (Nat.lt_of_le_of_lt hlast hbefore) _) hshown.2
      rw [Clock.nextBeat?_of_le (early_of_le_alarm hg hgrain hnow), Clock.later?,
        if_pos hlimit] at hnext
      obtain rfl := Option.some.inj hnext
      rw [hs.now_eq (by simp [he])]
      exact ⟨Nat.add_lt_add_right (Nat.lt_of_le_of_lt hlast hbefore) _,
        Nat.le_trans hnow (Clock.alarm_mono (Nat.le_add_right ..))⟩

/-! ### Patient watchdogs -/

/-- The clock can show the deadline of a watchdog that began. -/
theorem deadline_lt_limit (h : RunUnder ok r n past s) (hb : .awake job b ∈ past) :
    deadline r job b < r.clock.limit := by
  obtain ⟨later, earlier, rfl⟩ := List.append_of_mem hb
  obtain ⟨s₁, s₂, -, hs⟩ := h.split
  cases hs with
  | awake _ hbegin =>
    simp only [Watch.begin?, Clock.later?, Option.bind_eq_bind, Option.bind_eq_some_iff,
      Option.ite_none_right_eq_some, Option.some.injEq] at hbegin
    obtain ⟨_, ⟨-, rfl⟩, _, ⟨hlt, rfl⟩, -⟩ := hbegin
    exact hlt

/-- A watchdog that is due closes as completed once its job is settled. -/
theorem RunUnder.glance_completed (h : RunUnder ok r n past s) (hd : Distinct past) {w : Watch}
    {rest : Multiset Sentry} (hsen : s.sentries = ⟨job, some w⟩ ::ₘ rest)
    (hset : Settled past job) (hcalm : ∀ t, .shutdown t ∉ past)
    (hdue : r.clock.alarm w.due ≤ s.now) (hearly : s.now ≤ w.due + Clock.tolerance) :
    w.glance r s.collector job.id s.now = .close .completed := by
  have hx : ⟨job, some w⟩ ∈ s.sentries := hsen ▸ Multiset.mem_cons_self _ _
  have hpending : ¬s.collector.pending job.id = true := fun hpend =>
    (pending_iff h hd (watched_of_sentry h hx)).1 hpend hset
  simp [Watch.glance, hpending, shutdown_eq_false h hcalm, hdue, Clock.nextBeat?_of_le hearly]

section Patient

variable (h : Punctual r job n past s) (hd : Distinct past) (hg : 0 < r.clock.grain)
  (henqueue : Happened past (.enqueue job none) t) (htake : Happened past (.take c job) t)
  (hends : (Measurement.take r.policy job.kind job.timeout).EndsBy r.clock t stop)
  (hpatient : stop < t + job.timeout.nanos + r.grace.nanos)

include h hd hg henqueue htake hends hpatient

/-- A watchdog does not give up on a job whose measurement ends in time. -/
theorem not_timedOut (q : Instant) : .close job .timedOut q ∉ past := by
  intro hmem
  obtain ⟨later, earlier, rfl⟩ := List.append_of_mem hmem
  obtain ⟨s₁, s₂, h₁, hs⟩ := h.split
  have hd₁ := hd.of_append.of_cons
  cases hs with
  | @close _ w _ _ hsen hglance =>
    have hx : ⟨job, some w⟩ ∈ s₁.sentries := hsen ▸ Multiset.mem_cons_self _ _
    have hw : Watching r earlier s₁ job w := vigil h₁.run hd₁ _ hx
    obtain ⟨-, -, hpend, hdl⟩ := of_glance hglance
    have hunsettled := (pending_iff h₁.run hd₁ (watched_of_sentry h₁.run hx)).1 hpend
    -- the deadline, at which the job is found under way, is after the end of the measurement
    have hawake : .awake job w.began ∈ earlier := (hw.began _).2 rfl
    have hbegan : t ≤ w.began := enqueued_le h.run henqueue
      (List.mem_append_right _ (List.mem_cons_of_mem _ hawake))
    have hstop : stop < deadline r job w.began := Nat.lt_of_lt_of_le hpatient
      (Nat.add_le_add_right (Nat.add_le_add_right hbegan _) _)
    have hlimit : stop < r.clock.limit := Nat.lt_trans hstop (deadline_lt_limit h₁.run hawake)
    have hlate : stop < s₁.now := Nat.lt_of_lt_of_le hstop (hw.deadline_eq ▸ hdl)
    have hrun := h.run
    rw [← List.singleton_append, ← List.append_assoc] at hrun htake
    rcases htake.of_append hrun with htake | hle
    · exact hunsettled (settled_in_time h₁ htake hends hg hlimit hlate)
    · rw [clockAt_eq h₁.run] at hle
      exact absurd (Nat.le_trans hle hends.since_le) (Nat.not_le_of_lt hlate)

/-- It closes as completed soon after its deadline at the latest. -/
theorem completed_in_time (hgrain : r.clock.grain ≤ Clock.tolerance) (hb : .awake job b ∈ past)
    (hshown : Shown r job b) (hcalm : ∀ t, .shutdown t ∉ past)
    (hlate : deadline r job b + r.poll.nanos + r.clock.grain ≤ s.now) :
    ∃ q, .close job .completed q ∈ past := by
  have hon : .falter job ∉ past := not_falter h.run hd hb fun h₁ hd₁ hx hbegan => by
    have hahead := look_ahead h₁ hd₁ hg hgrain hx rfl (hbegan ▸ hshown)
    exact early_of_le_alarm hg hgrain hahead.2
  rcases closed_or_watching h.run hb hon with hclosed | ⟨w, hx⟩
  · obtain ⟨e, he, hjob⟩ := mem_jobs.1 hclosed
    cases e with
    | close other v q =>
      cases hjob
      cases v with
      | completed => exact ⟨q, he⟩
      | timedOut => exact absurd he (not_timedOut h hd hg henqueue htake hends hpatient q)
      | shutdown =>
        obtain ⟨later, earlier, rfl⟩ := List.append_of_mem he
        obtain ⟨s₁, s₂, h₁, hs⟩ := h.split
        cases hs with
        | close _ hglance =>
          obtain ⟨t, ht⟩ := (shutdown_iff h₁.run).1 (of_glance hglance)
          exact absurd (List.mem_append_right _ (List.mem_cons_of_mem _ ht)) (hcalm t)
    | _ => cases hjob
  · -- the next look would be overdue
    have hw : Watching r past s job w := vigil h.run hd _ hx
    obtain rfl : b = w.began := (hw.began b).1 hb
    obtain ⟨hdue, hnow⟩ := look_ahead h.run hd hg hgrain hx rfl hshown
    have halarm : r.clock.alarm w.due < w.due + r.clock.grain := Clock.alarm_lt hg
    have hlt := Nat.lt_of_le_of_lt hnow (Nat.lt_trans halarm (Nat.add_lt_add_right hdue _))
    exact absurd hlate (Nat.not_le_of_lt hlt)

end Patient

end Engine

/-! ### The times of a configuration -/

/-- Half a second, in nanoseconds. -/
def halfSecond : Nat := nanosPerSecond / 2

namespace Config

variable {c : Config} {t : Target}

/-- How the program goes about its work under a configuration. -/
def routine (c : Config) : Routine := { Routine.standard with policy := c.retryPolicy }

theorem second_dvd_ofSecs (secs : UInt64) : nanosPerSecond ∣ (Duration.ofSecs secs).nanos :=
  Nat.dvd_mul_left ..

theorem dvd_max {g : Nat} {a b : Duration} (ha : g ∣ a.nanos) (hb : g ∣ b.nanos) :
    g ∣ (max a b).nanos := by
  rw [Duration.nanos_max]
  rcases Nat.le_total a.nanos b.nanos with h | h
  · rw [Nat.max_eq_right h]; exact hb
  · rw [Nat.max_eq_left h]; exact ha

theorem second_dvd_minPeriod : nanosPerSecond ∣ minPeriod.nanos := second_dvd_ofSecs 1

/-- Intervals are whole seconds. -/
theorem second_dvd_interval (c : Config) (secs : Option UInt64) :
    nanosPerSecond ∣ (c.interval secs).nanos := by
  rw [interval]
  apply dvd_max _ second_dvd_minPeriod
  cases secs with
  | some s =>
    rw [Option.map_some, Option.getD_some]
    exact second_dvd_ofSecs s
  | none =>
    rw [Option.map_none, Option.getD_none, defaultInterval]
    exact dvd_max (second_dvd_ofSecs _) second_dvd_minPeriod

/-- Timeouts are whole or half seconds. -/
theorem half_dvd_timeout (secs : Option UInt64) {interval : Duration}
    (h : nanosPerSecond ∣ interval.nanos) : halfSecond ∣ (timeout secs interval).nanos := by
  have hwhole : ∀ secs, halfSecond ∣ (Duration.ofSecs secs).nanos := by
    intro secs
    exact Nat.dvd_trans (by decide) (second_dvd_ofSecs secs)
  cases secs with
  | some s => exact dvd_max (hwhole s) (hwhole 1)
  | none =>
    apply dvd_max _ (hwhole 1)
    rw [Duration.nanos_min, Duration.nanos_half]
    have hhalf : halfSecond ∣ interval.nanos / 2 := Nat.div_dvd_div (by decide) h
    rcases Nat.le_total (interval.nanos / 2) maxDerivedTimeout.nanos with hle | hle
    · rw [Nat.min_eq_left hle]; exact hhalf
    · rw [Nat.min_eq_right hle]; exact hwhole 300

theorem half_dvd_of_mem (ht : t ∈ c.targets) : halfSecond ∣ t.timeout.nanos := by
  rw [targets, List.mem_append] at ht
  rcases ht with ht | ht
  all_goals
    obtain ⟨entry, -, rfl⟩ := List.mem_map.1 ht
    exact half_dvd_timeout _ (c.second_dvd_interval _)

/-- So are the limits of calls. -/
theorem half_dvd_limit (ht : t ∈ c.targets) :
    halfSecond ∣ (Measurement.callOf t.kind t.timeout).limit.nanos := by
  cases hk : t.kind with
  | filesystem job =>
    show halfSecond ∣ Usage.Filesystem.timeLimit.nanos
    decide
  | directory job => exact half_dvd_of_mem ht

/-- A pause that is not too long to be told is made of whole seconds. -/
theorem half_dvd_delay {i : Nat} (h : (c.retryPolicy.delayAfter i).nanos < Duration.maxNanos) :
    halfSecond ∣ (c.retryPolicy.delayAfter i).nanos := by
  rw [RetryPolicy.delayAfter, Duration.nanos_times] at h ⊢
  have hexact := (min_lt_iff.1 h).resolve_right (Nat.lt_irrefl _)
  rw [Nat.min_eq_left (Nat.le_of_lt hexact)]
  apply Nat.dvd_mul_right_of_dvd
  exact Nat.dvd_trans (by decide) (second_dvd_ofSecs _)

/-- What the watchdogs of a target wait for, in nanoseconds. -/
def patience (t : Target) : Nat := t.timeout.nanos + Routine.standard.grace.nanos

theorem half_dvd_patience (ht : t ∈ c.targets) : halfSecond ∣ patience t :=
  Nat.dvd_add (half_dvd_of_mem ht) (by decide)

/-- The greatest length of time is longer than any watchdog waits. -/
theorem patience_le (t : Target) : patience t ≤
    2 * (Measurement.callOf t.kind t.timeout).limit.nanos + Duration.maxNanos := by
  have hgrace : Routine.standard.grace.nanos ≤ Duration.maxNanos := by decide
  have hlimit : Routine.standard.grace.nanos ≤ 2 * Usage.Filesystem.timeLimit.nanos := by decide
  have htimeout := t.timeout.nanos_le
  rw [patience]
  cases t.kind with
  | filesystem job =>
    show _ ≤ 2 * Usage.Filesystem.timeLimit.nanos + _
    omega
  | directory job =>
    show _ ≤ 2 * t.timeout.nanos + _
    omega

/-- Where watchdogs are patient, pauses are made of whole seconds. -/
theorem half_dvd_delay_of_patient
    (hlong : Measurement.longest c.retryPolicy t.kind t.timeout < patience t) {i : Nat}
    (hle : 1 ≤ i) (hlt : i < c.retryPolicy.attempts) :
    halfSecond ∣ (c.retryPolicy.delayAfter i).nanos := by
  apply half_dvd_delay
  by_contra hge
  have hlast : i < 1 + (c.retryPolicy.attempts - 1) := by omega
  have hpause := c.retryPolicy.delayAfter_le_pausesFrom hle hlast
  have hcalls := Nat.mul_le_mul_right (Measurement.callOf t.kind t.timeout).limit.nanos
    (Nat.lt_of_le_of_lt hle hlt)
  have hwait := patience_le t
  rw [Measurement.longest, RetryPolicy.pauses] at hlong
  omega

/-- A measurement that may take less time than its watchdog waits ends in time,
whenever it begins. -/
theorem ends_in_time (ht : t ∈ c.targets)
    (hlong : Measurement.longest c.retryPolicy t.kind t.timeout < patience t) (i : Instant) :
    ∃ stop, (Measurement.take c.retryPolicy t.kind t.timeout).EndsBy Clock.standard i stop ∧
      stop < i + patience t := by
  have hgrain : Clock.standard.grain ∣ halfSecond := by decide
  have hlimit := half_dvd_limit ht
  have hdelay : ∀ k, 1 ≤ k → k < c.retryPolicy.attempts →
      halfSecond ∣ (c.retryPolicy.delayAfter k).nanos :=
    fun k => half_dvd_delay_of_patient hlong
  have hlongest : halfSecond ∣ Measurement.longest c.retryPolicy t.kind t.timeout := by
    apply Nat.dvd_add
    · exact Nat.dvd_mul_left_of_dvd hlimit _
    · exact c.retryPolicy.dvd_pausesFrom fun k hle hlt => hdelay k hle (by omega)
  -- half a second is left, and a timer is late by less than that
  have hroom : halfSecond ≤ patience t - Measurement.longest c.retryPolicy t.kind t.timeout :=
    Nat.le_of_dvd (Nat.sub_pos_of_lt hlong) (Nat.dvd_sub (half_dvd_patience ht) hlongest)
  have hgrain_le : Clock.standard.grain ≤ halfSecond := by decide
  obtain ⟨u, hu, hle, hlt, -⟩ := Clock.exists_dvd (c := .standard) (by decide) i
  have hend : u + Measurement.longest c.retryPolicy t.kind t.timeout < i + patience t :=
    calc u + Measurement.longest c.retryPolicy t.kind t.timeout
        < i + Clock.standard.grain + Measurement.longest c.retryPolicy t.kind t.timeout :=
          Nat.add_lt_add_right hlt _
      _ ≤ i + (patience t - Measurement.longest c.retryPolicy t.kind t.timeout) +
            Measurement.longest c.retryPolicy t.kind t.timeout :=
          Nat.add_le_add_right (Nat.add_le_add_left (Nat.le_trans hgrain_le hroom) i) _
      _ = i + patience t := by
          rw [Nat.add_assoc, Nat.sub_add_cancel (Nat.le_of_lt hlong)]
  refine ⟨_, ⟨u, _, hu, hle, ?_, Nat.le_refl _⟩, hend⟩
  apply Measurement.within_take
  · exact Nat.dvd_trans hgrain hlimit
  · intro k hle hlt
    exact Nat.dvd_trans hgrain (hdelay k hle hlt)

/-- Watchdogs look at their deadlines, as long as these are not thirty years away. -/
theorem regular (ht : t ∈ c.targets) (hnear : patience t ≤ Clock.farAway) {job : Job}
    (hjob : job.timeout = t.timeout) : Engine.Regular c.routine job := by
  have hdeadline : Engine.deadline c.routine job 0 = patience t := by
    rw [Engine.deadline, hjob, Nat.zero_add]
    rfl
  have hgrain : 0 < Clock.standard.grain := by decide
  have hpoll : 0 < Routine.standard.poll.nanos := by decide
  have hdvd : Clock.standard.grain ∣ Routine.standard.poll.nanos := by decide
  have hhalf : Routine.standard.poll.nanos ∣ halfSecond := by decide
  refine ⟨hgrain, hpoll, hdvd, ?_, ?_, ?_⟩
  · rw [hdeadline]
    exact Nat.dvd_trans hhalf (half_dvd_patience ht)
  · rw [Engine.Shown, hdeadline]
    have hlast : Clock.farAway + Routine.standard.poll.nanos ≤ Clock.standard.lastAlarm := by
      decide
    have hlimit : Clock.farAway + Routine.standard.poll.nanos < Clock.standard.limit := by decide
    exact ⟨Nat.le_trans (Nat.add_le_add_right hnear _) hlast,
      Nat.lt_of_le_of_lt (Nat.add_le_add_right hnear _) hlimit⟩
  · rw [hdeadline]
    exact hnear

end Config

namespace Engine

/-! ### A job that is settled in time -/

/-- A configuration with one file system, whose measurements get so many seconds. -/
def singleConfig (seconds : UInt64) : Config :=
  { Config.standard with filesystems := [⟨"root", ⟨"/"⟩, "disk", some 60, some seconds⟩] }

/-- The target of that configuration. -/
def singleTarget (seconds : UInt64) : Target :=
  ⟨"root", .filesystem ⟨⟨"/"⟩, "disk"⟩, .ofSecs 60, .ofSecs seconds⟩

/-- A punctual run with one job, which its worker has settled, and these watchdogs are still
there. -/
structure Done (r : Routine) (job : Job) (n : Nat) (past : List Act) (s : Engine)
    (watchdogs : Multiset Sentry) : Prop where
  run : Punctual r job n past s
  drawn : jobs Act.drawn? past = [job]
  settled : Settled past job
  calm : ∀ t, .shutdown t ∉ past
  free : s.worker job.category = .free
  sentries : s.sentries = watchdogs

namespace Done

variable {watchdogs watchdogs' : Multiset Sentry} {w : Watch}

/-- What comes after the job is settled, unless it is another job or a shutdown. -/
theorem step (h : Done r job n past s watchdogs) (hrun : Punctual r job n (e :: past) s')
    (hnone : e.drawn? = none) (hcalm : ∀ t, e ≠ .shutdown t)
    (hfree : s'.worker job.category = .free) (hsen : s'.sentries = watchdogs') :
    Done r job n (e :: past) s' watchdogs' := by
  obtain ⟨c, hset⟩ := h.settled
  refine ⟨hrun, ?_, ⟨c, List.mem_cons_of_mem _ hset⟩, fun t ht => ?_, hfree, hsen⟩
  · rw [jobs_cons, hnone, h.drawn]
    rfl
  · exact h.calm t (List.mem_of_ne_of_mem (hcalm t).symm ht)

/-- Time passes while the watchdogs sleep. -/
theorem elapse (h : Done r job n past s watchdogs) (ht : s.now ≤ t)
    (hsleep : ∀ x ∈ watchdogs, ∃ w, x.watch = some w ∧
      w.glance r s.collector x.job.id s.now = .sleep ∧ t ≤ r.clock.alarm w.due) :
    Done r job n (.elapse t :: past) { s with now := t } watchdogs := by
  have hprompt : Prompt r s (.elapse t) := by
    rintro u ⟨⟩ x hx
    exact hsleep x (h.sentries ▸ hx)
  have htimely : Timely r job past s (.elapse t) := by
    rintro u ⟨⟩ d hd
    obtain rfl := category_of_mem_jobs h.run.run hd
    rw [h.free] at hd
    cases hd
  exact h.step (h.run.step (.elapse ht) hprompt htimely) rfl nofun h.free h.sentries

/-- The watchdog closes at its next look. -/
theorem close (h : Done r job n past s (⟨job, some w⟩ ::ₘ 0)) (hnow : s.now = w.due)
    (halarm : r.clock.alarm w.due = w.due) :
    ∃ s', Done r job n (.close job .completed s.now :: past) s' 0 ∧ s'.now = s.now := by
  have hglance := h.run.run.glance_completed (.of_drawn h.drawn) h.sentries h.settled h.calm
    (Nat.le_of_eq (halarm.trans hnow.symm)) (hnow ▸ Nat.le_add_right _ _)
  have hrun := h.run.still (.close h.sentries hglance) (by simp)
  exact ⟨_, h.step hrun rfl nofun h.free rfl, rfl⟩

end Done

/-- The run can go on to a point at which the job is settled and its watchdog has closed, not
after the deadline. -/
def Concludes (r : Routine) (job : Job) (n : Nat) (past : List Act) : Prop :=
  ∃ later s, Done r job n (later ++ past) s 0 ∧ s.now ≤ deadline r job 0

theorem Concludes.of_append (later : List Act) (h : Concludes r job n (later ++ past)) :
    Concludes r job n past := by
  obtain ⟨more, s, h⟩ := h
  rw [← List.append_assoc] at h
  exact ⟨more ++ later, s, h⟩

namespace Guarded

variable {due : Instant} {span : Nat} {x : Activity (Except Error Measurement)}

/-- The worker settles its job once the measurement is done. -/
theorem settle (h : Guarded r job n past s due) {result : Except Error Measurement}
    (hw : s.worker job.category = .measuring job span (.done result)) :
    ∃ s', Done r job n (.settle job.category job :: past) s'
      (⟨job, some ⟨0, deadline r job 0, due⟩⟩ ::ₘ 0) ∧ s'.now = s.now := by
  have hrun := h.run.still (@Step.settle _ _ _ _ _ _ s.now (.ofSecs 0) hw) (by simp)
  refine ⟨_, ⟨hrun, ?_, ⟨_, List.mem_cons_self⟩, ?_, PerCategory.get_set _ _ _, h.sentries⟩, rfl⟩
  · rw [jobs_cons, h.drawn]
    rfl
  · simpa using h.calm

/-- The watchdog sleeps until its next look and closes. -/
theorem concludes_of_done (h : Guarded r job n past s due) (hr : Regular r job)
    {result : Except Error Measurement}
    (hw : s.worker job.category = .measuring job span (.done result)) :
    Concludes r job n past := by
  have halarm := h.alarm_due hr
  obtain ⟨s₁, hdone, hnow⟩ := h.settle hw
  apply Concludes.of_append [.settle job.category job]
  rcases Nat.lt_or_ge s₁.now due with hlt | hge
  · have hslept := hdone.elapse (Nat.le_of_lt hlt) (by
      intro x hx
      obtain rfl := Multiset.mem_singleton.1 hx
      refine ⟨_, rfl, ?_, halarm.symm ▸ Nat.le_refl due⟩
      simp [Watch.glance, shutdown_eq_false hdone.run.run hdone.calm, halarm,
        Nat.not_le_of_lt hlt])
    obtain ⟨s₂, hclosed, hnow₂⟩ := hslept.close rfl halarm
    exact ⟨[_, .elapse due], s₂, hclosed, hnow₂ ▸ h.due_le⟩
  · have hat : s₁.now = due := Nat.le_antisymm (hnow ▸ h.now_le) hge
    obtain ⟨s₂, hclosed, hnow₂⟩ := hdone.close hat halarm
    exact ⟨[_], s₂, hclosed, by rw [hnow₂, hat]; exact h.due_le⟩

/-- A worker that measures may be done at once, whatever is left to do. -/
theorem concludes (h : Guarded r job n past s due) (hr : Regular r job)
    (hw : s.worker job.category = .measuring job span x) : Concludes r job n past := by
  obtain ⟨later, s', span, result, hguarded, hdone, -⟩ :=
    measures (P := fun past s => Guarded r job n past s due) Guarded.act h hw
  exact (hguarded.concludes_of_done hr hdone).of_append later

end Guarded

/-- A job whose first call is answered only when its limit is reached may be settled then,
if that is not after the deadline. -/
theorem exists_answered (t : Target) (hr : ∀ job : Job, job.timeout = t.timeout → Regular r job)
    (hg : Guard.textFault? t.kind.path = none)
    (hlimit : (Measurement.callOf t.kind t.timeout).limit.nanos ≤ t.timeout.nanos + r.grace.nanos)
    (answer : Except Error String) : ∃ job past s,
      job = .ofTarget t job.id job.cycle job.stop ∧ Done r job 1 past s 0 ∧
      s.now ≤ deadline r job 0 ∧ .awake job 0 ∈ past ∧ Happened past (.enqueue job none) 0 ∧
      Happened past (.take job.category job) 0 ∧
      Happened past (.call job.category (Measurement.callOf t.kind t.timeout))
        (Measurement.callOf t.kind t.timeout).limit.nanos := by
  obtain ⟨job, past, s, span, read, hjob, hguarded, hnow, hw, hlast, hawake, henqueue, htake⟩ :=
    exists_guarded t hr hg
  have htimeout : job.timeout = t.timeout := by rw [hjob]; rfl
  have hregular := hr job htimeout
  obtain ⟨next, hcall⟩ := Activity.retrying_call r.policy
    (Measurement.callOf t.kind t.timeout).program (Measurement.callOf t.kind t.timeout)
  rw [hcall] at hw
  -- the clock gets to the limit of the call
  obtain ⟨beats, hbeats⟩ := hguarded.beats
  obtain ⟨later, s₁, due, hwaited, hnow₁, hw₁⟩ := hguarded.reach hregular beats hbeats
    (t := (Measurement.callOf t.kind t.timeout).limit.nanos) (hnow.symm ▸ Nat.zero_le _)
    (by rw [deadline, htimeout, Nat.zero_add]; exact hlimit)
    (by rw [hw, hlast, hnow]; exact Nat.le_of_eq (Nat.zero_add _).symm)
  have hat : clockAt (later ++ past) = s₁.now := clockAt_eq hwaited.run.run
  rw [worker, ← hw₁] at hw
  have hanswered := hwaited.act (.call hw answer) rfl (by simp)
  obtain ⟨more, s', hdone, hle⟩ := hanswered.concludes hregular (PerCategory.get_set _ _ _)
  refine ⟨job, _, s', hjob, hdone, hle, ?_, ?_, ?_, ⟨more, later ++ past, rfl, hat.trans hnow₁⟩⟩
  · simp [hawake]
  · exact ((henqueue.append later).append [_]).append more
  · exact ((htake.append later).append [_]).append more

/-! ### False alarms -/

/-- Under every configuration, and for each of its targets: where a measurement takes
less time at most than its watchdog waits (every attempt up to the limit of its call,
and the pauses between attempts), no watchdog gives up on a job that was taken out
at the instant at which it was put in and each call for which was answered within its
limit.  Unless a shutdown is requested, the watchdog closes as completed less than a
period and a grain of the timers after its deadline at the latest, if the clock can
show that.
Where a measurement may take as long as its watchdog waits, or longer, there is such
a job on which the watchdog gives up although it is settled in the end, provided that
the path is one that is measured and the watchdog does not wait for thirty years. -/
theorem no_false_alarm (c : Config) {t : Target} (ht : t ∈ c.targets) :
    (Measurement.longest c.retryPolicy t.kind t.timeout < Config.patience t →
      ∀ (n : Nat) (job : Job) (past : List Act) (s : Engine) (i : Instant),
        job = .ofTarget t job.id job.cycle job.stop → Punctual c.routine job n past s →
        (jobs Act.drawn? past).length < 2 ^ 64 →
        Happened past (.enqueue job none) i → Happened past (.take job.category job) i →
        (∀ q, .close job .timedOut q ∉ past) ∧
        ∀ b, .awake job b ∈ past → Shown c.routine job b → (∀ u, .shutdown u ∉ past) →
          deadline c.routine job b + c.routine.poll.nanos + c.routine.clock.grain ≤ s.now →
            ∃ q, .close job .completed q ∈ past) ∧
    (Config.patience t ≤ Measurement.longest c.retryPolicy t.kind t.timeout →
      Config.patience t ≤ Clock.farAway → Guard.textFault? t.kind.path = none →
        ∃ (n : Nat) (job : Job) (past : List Act) (s : Engine) (i q : Instant),
          job = .ofTarget t job.id job.cycle job.stop ∧ Punctual c.routine job n past s ∧
          Happened past (.enqueue job none) i ∧ Happened past (.take job.category job) i ∧
          (∀ u, .shutdown u ∉ past) ∧ .close job .timedOut q ∈ past ∧ Settled past job) := by
  refine ⟨fun hlong n job past s i hjob h few henqueue htake => ?_,
    fun hlong hnear hguard => ?_⟩
  · have htimeout : job.timeout = t.timeout := by rw [hjob]; rfl
    have hkind : job.kind = t.kind := by rw [hjob]; rfl
    have hd := distinct_of_few h.run few
    have hgrain : 0 < Clock.standard.grain := by decide
    have hearly : Clock.standard.grain ≤ Clock.tolerance := by decide
    obtain ⟨stop, hends, hstop⟩ := Config.ends_in_time ht hlong i
    rw [← htimeout, ← hkind] at hends
    rw [Config.patience, ← htimeout, ← Nat.add_assoc] at hstop
    refine ⟨not_timedOut h hd hgrain henqueue htake hends hstop, fun b hb hshown => ?_⟩
    exact completed_in_time h hd hgrain henqueue htake hends hstop hearly hb hshown
  · obtain ⟨job, past, s, hjob, h, henqueue, htake, hcalm, hclose, hset⟩ :=
      exists_overrun t (fun job => Config.regular ht hnear) hguard hlong
    exact ⟨1, job, past, s, 0, _, hjob, h, henqueue, htake, hcalm, hclose, hset⟩

/-- With a minute for its job, a watchdog does not give up on one whose call of `df` is
answered after the ten seconds that it may take, and it has closed when its deadline is
past. -/
theorem no_false_alarm_of_minute : ∃ (job : Job) (past : List Act) (s : Engine),
    Punctual (singleConfig 60).routine job 1 past s ∧
      Happened past (.enqueue job none) 0 ∧ Happened past (.take job.category job) 0 ∧
      Happened past (.call job.category (Measurement.filesystemCall ⟨⟨"/"⟩, "disk"⟩))
        (10 * nanosPerSecond) ∧
      (∀ q, .close job .timedOut q ∉ past) ∧ ∃ q, .close job .completed q ∈ past := by
  have hmem : singleTarget 60 ∈ (singleConfig 60).targets := by decide
  obtain ⟨job, past, s, hjob, hdone, hend, hawake, henqueue, htake, hcall⟩ :=
    exists_answered (r := (singleConfig 60).routine) (singleTarget 60)
      (fun job => Config.regular hmem (by decide)) rfl (by decide)
      (.ok "/dev/sda1 100 20 80 20% /")
  have htimeout : job.timeout = .ofSecs 60 := by rw [hjob]; rfl
  have hdeadline : deadline (singleConfig 60).routine job 0 = 65 * nanosPerSecond := by
    rw [deadline, htimeout]
    decide
  -- nothing else happens until the deadline is past
  have htime : s.now ≤ 66 * nanosPerSecond :=
    Nat.le_trans hend (hdeadline ▸ Nat.mul_le_mul_right _ (by decide))
  have hlater := hdone.elapse htime fun x hx => absurd hx (Multiset.notMem_zero x)
  have few : (jobs Act.drawn? (.elapse (66 * nanosPerSecond) :: past)).length < 2 ^ 64 := by
    rw [hlater.drawn]
    show 1 < 2 ^ 64
    decide
  replace henqueue := henqueue.append [.elapse (66 * nanosPerSecond)]
  replace htake := htake.append [.elapse (66 * nanosPerSecond)]
  replace hcall := hcall.append [.elapse (66 * nanosPerSecond)]
  obtain ⟨hnever, hcompleted⟩ :=
    (no_false_alarm (singleConfig 60) hmem).1 (by decide) 1 job _ _ 0 hjob hlater.run few henqueue
      htake
  have hshown : Shown (singleConfig 60).routine job 0 := by
    rw [Shown, hdeadline]
    decide
  have hlate : deadline (singleConfig 60).routine job 0 + (singleConfig 60).routine.poll.nanos +
      (singleConfig 60).routine.clock.grain ≤ 66 * nanosPerSecond := by
    rw [hdeadline]
    decide
  exact ⟨job, _, _, hlater.run, henqueue, htake, hcall, hnever,
    hcompleted 0 (List.mem_cons_of_mem _ hawake) hshown hlater.calm hlate⟩

/-- With one second for `df`, which may take ten, a watchdog gives up on a job that
keeps all its limits and is settled in the end. -/
theorem gives_up_on_slow_df : (singleConfig 1).check = .ok () ∧
    ∃ t ∈ (singleConfig 1).targets, ∃ (job : Job) (past : List Act) (s : Engine),
      job = .ofTarget t job.id job.cycle job.stop ∧
      Punctual (singleConfig 1).routine job 1 past s ∧
      Happened past (.enqueue job none) 0 ∧ Happened past (.take job.category job) 0 ∧
      (∀ u, .shutdown u ∉ past) ∧ .close job .timedOut (6 * nanosPerSecond) ∈ past ∧
      Settled past job := by
  have hmem : singleTarget 1 ∈ (singleConfig 1).targets := by decide
  obtain ⟨job, past, s, hjob, h, henqueue, htake, hcalm, hclose, hset⟩ :=
    exists_overrun (r := (singleConfig 1).routine) (singleTarget 1)
      (fun job => Config.regular hmem (by decide)) rfl (by decide)
  have htimeout : job.timeout = .ofSecs 1 := by rw [hjob]; rfl
  have hdeadline : deadline (singleConfig 1).routine job 0 = 6 * nanosPerSecond := by
    rw [deadline, htimeout]
    decide
  rw [hdeadline] at hclose
  exact ⟨rfl, singleTarget 1, hmem, job, past, s, hjob, h, henqueue, htake, hcalm, hclose, hset⟩

end Engine

end DiskWatch
