/-
DiskWatch/Proofs/Verdict.lean

How a watchdog closes.  A watchdog that began at `b` looks at `b`, at one period
after `b`, at two periods after `b` and so on.  It closes at the first look that
finds its job settled or the deadline reached, and at once when a shutdown is
requested.

This asks for two things.  Timers go off at the instants they are set for
(`OnTime`), and nobody sleeps past them: time passes only while every watchdog
waits for a timer, and not beyond that timer (`Prompt`).  Then a watchdog is never
so late that it could not set its next look (`not_falter`).  Everything else (ticks,
workers, other watchdogs, the moment of a shutdown) is left as open as in any
run.

What a watchdog finds when it looks is told by the books: its job is under way
until the worker has settled it, whatever other jobs of the target have been
admitted since (`pending_iff`).  The state of a watchdog between two looks is an
invariant (`Vigil`), and the verdict is read off it.
-/
import DiskWatch.Proofs.Conservation

namespace DiskWatch.Engine

variable {ok : Engine → Act → Prop} {r : Routine} {n : Nat} {past later earlier : List Act}
  {s s' : Engine} {e : Act} {job other : Job} {b : Instant}

/-! ### The clock and the shutdown -/

/-- The clock stands still, except when time passes. -/
theorem Step.now_eq (h : Step r s e s') (he : ∀ t, e ≠ .elapse t) : s'.now = s.now := by
  cases h with
  | elapse => exact absurd rfl (he _)
  | _ => rfl

theorem Step.now_le (h : Step r s e s') : s.now ≤ s'.now := by
  cases h with
  | elapse ht => exact ht
  | _ => exact Nat.le_refl _

/-- Only a request for shutdown changes whether one was made. -/
theorem Step.shutdown_eq (h : Step r s e s') (he : ∀ t, e ≠ .shutdown t) :
    s'.collector.shutdown = s.collector.shutdown := by
  cases h with
  | draw hk | reserve _ hk | enqueue _ hk | idle _ hk | take _ hk | begin _ hk | finish _ hk _ =>
    exact (congrArg (fun p => p.2.shutdown) hk).symm
  | shutdown => exact absurd rfl (he _)
  | _ => rfl

theorem Step.shutdown_now (h : Step r s (.shutdown b) s') :
    b = s.now ∧ s'.collector.shutdown = true := by
  cases h
  exact ⟨rfl, rfl⟩

theorem shutdown_iff (h : RunUnder ok r n past s) :
    s.collector.shutdown = true ↔ ∃ t, .shutdown t ∈ past := by
  induction h with
  | start => exact iff_of_false nofun nofun
  | @step past s s' e _ hs _ ih =>
    by_cases he : ∃ t, e = .shutdown t
    · obtain ⟨t, rfl⟩ := he
      exact iff_of_true hs.shutdown_now.2 ⟨t, List.mem_cons_self⟩
    · rw [hs.shutdown_eq fun t ht => he ⟨t, ht⟩, ih]
      refine exists_congr fun t => ?_
      rw [List.mem_cons]
      exact ⟨.inr, fun ht => ht.resolve_left fun hte => he ⟨t, hte.symm⟩⟩

theorem shutdown_eq_false (h : RunUnder ok r n past s) (hcalm : ∀ t, .shutdown t ∉ past) :
    s.collector.shutdown = false := by
  rw [← Bool.not_eq_true, shutdown_iff h]
  exact fun ⟨t, ht⟩ => hcalm t ht

/-- Shutdowns were requested in the past. -/
theorem shutdown_le (h : RunUnder ok r n past s) {t : Instant} (ht : .shutdown t ∈ past) :
    t ≤ s.now := by
  induction h with
  | start => cases ht
  | step _ hs _ ih =>
    rcases List.mem_cons.1 ht with rfl | ht
    · rw [hs.shutdown_now.1]
      exact hs.now_le
    · exact Nat.le_trans (ih ht) hs.now_le

/-! ### Parts of a run -/

/-- A run can be taken apart before any of its acts. -/
theorem RunUnder.split (h : RunUnder ok r n (later ++ e :: earlier) s) :
    ∃ s₁ s₂, RunUnder ok r n earlier s₁ ∧ Step r s₁ e s₂ := by
  induction later generalizing s with
  | nil =>
    cases h with
    | step h hs _ => exact ⟨_, _, h, hs⟩
  | cons _ later ih =>
    cases h with
    | step h _ _ => exact ih h

/-! ### What a watchdog finds -/

/-- The worker has settled the job. -/
def Settled (past : List Act) (job : Job) : Prop := ∃ c, .settle c job ∈ past

theorem settled_iff : Settled past job ↔ ∃ c, job ∈ jobs (Act.settledIn? c) past := by
  refine exists_congr fun c => ?_
  rw [mem_jobs]
  constructor
  · intro hmem
    exact ⟨_, hmem, if_pos rfl⟩
  · rintro ⟨e, he, hse⟩
    exact eq_settle hse ▸ he

theorem accepted_of_dispatched (h : RunUnder ok r n past s)
    (hj : job ∈ jobs Act.dispatched? past) : job ∈ jobs Act.accepted? past := by
  rw [← Multiset.mem_coe, accepted_eq h]
  exact Multiset.mem_add.2 (.inr hj)

/-- A job that was handed to a watchdog is live until it is settled. -/
theorem live_iff_of_dispatched (h : RunUnder ok r n past s)
    (hj : job ∈ jobs Act.dispatched? past) : Live past job ↔ ¬Settled past job := by
  have hacc := accepted_of_dispatched h hj
  have hwith := (admitted_parts h).2.2 job hacc
  rw [Live, mem_released, settled_iff]
  constructor
  · rintro ⟨-, hrel⟩ hset
    exact hrel (.inr hset)
  · intro hset
    exact ⟨(mem_admitted h).2 (.inr (.inl hacc)), fun hrel => hrel.elim hwith hset⟩

/-- The tracker shows a job that was handed to a watchdog until it is settled. -/
theorem shows_iff (h : RunUnder ok r n past s) (hd : Distinct past)
    (hj : job ∈ jobs Act.dispatched? past) :
    (s.ledger job.category).shows job.target job.id = true ↔ ¬Settled past job := by
  have hb := books h hd job.category
  rw [Ledger.shows_iff hb.sound, hb.marks, ← live_iff_of_dispatched h hj]
  constructor
  · -- the live job of the target is this one, as it has its identifier
    rintro ⟨other, ho, -, -, hid⟩
    exact hd.eq_of_id_eq (ho.drawn h) (drawn_of_dispatched h hj) hid ▸ ho
  · intro hlive
    exact ⟨job, hlive, rfl, rfl, rfl⟩

/-- The record in flight of a job whose watchdog has not closed. -/
theorem dispatch?_eq (h : RunUnder ok r n past s) (hd : Distinct past) (hj : job ∈ watched past) :
    s.collector.dispatch? job.id = some (.ofJob job) := by
  have hmem : Dispatch.ofJob job ∈ s.collector.inFlight := by
    rw [inFlight_eq h hd]; exact List.mem_map_of_mem hj
  cases hf : s.collector.dispatch? job.id with
  | none => simpa [Dispatch.ofJob] using List.find?_eq_none.1 hf _ hmem
  | some d =>
    have hid : d.id = job.id := by simpa using List.find?_some hf
    have hin := List.mem_of_find?_eq_some hf
    rw [inFlight_eq h hd] at hin
    obtain ⟨other, ho, rfl⟩ := List.mem_map.1 hin
    rw [hd.eq_of_id_eq (drawn_of_dispatched h (mem_watched.1 ho).1)
      (drawn_of_dispatched h (mem_watched.1 hj).1) hid]

/-- A watchdog that has not closed finds its job under way until it is settled. -/
theorem pending_iff (h : RunUnder ok r n past s) (hd : Distinct past) (hj : job ∈ watched past) :
    s.collector.pending job.id = true ↔ ¬Settled past job := by
  rw [← shows_iff h hd (mem_watched.1 hj).1, Collector.pending, dispatch?_eq h hd hj]
  exact Iff.rfl

/-! ### Single watchdogs -/

theorem begin?_eq_some {timeout : Duration} {now : Instant} {w : Watch}
    (h : Watch.begin? r timeout now = some w) :
    w = ⟨now, now + timeout.nanos + r.grace.nanos, now⟩ ∧ 0 < r.poll.nanos := by
  simp only [Watch.begin?, Clock.later?, Option.bind_eq_bind, Option.bind_eq_some_iff,
    Option.ite_none_right_eq_some, Option.ite_none_left_eq_some, Option.some.injEq] at h
  obtain ⟨_, ⟨-, rfl⟩, _, ⟨-, rfl⟩, hp, rfl⟩ := h
  exact ⟨rfl, Nat.pos_of_ne_zero hp⟩

/-- What is so when a watchdog that gets to run does this. -/
def Found (r : Routine) (w : Watch) (k : Collector) (id : JobId) (now : Instant) : Glance → Prop
  | .close .shutdown => k.shutdown = true
  | .sleep => k.shutdown = false ∧ now < r.clock.alarm w.due
  | .fail => k.shutdown = false ∧ r.clock.alarm w.due ≤ now ∧
      w.due + Clock.tolerance < now ∧ r.clock.limit ≤ now + r.poll.nanos
  | .close .completed => k.shutdown = false ∧ r.clock.alarm w.due ≤ now ∧ k.pending id = false
  | .close .timedOut => k.shutdown = false ∧ r.clock.alarm w.due ≤ now ∧
      k.pending id = true ∧ w.deadline ≤ now
  | .again due => k.shutdown = false ∧ r.clock.alarm w.due ≤ now ∧
      k.pending id = true ∧ now < w.deadline ∧
        r.clock.nextBeat? .delay w.due now r.poll = some due

/-- What a watchdog does when it gets to run, and when. -/
theorem of_glance {w : Watch} {k : Collector} {id : JobId} {now : Instant} {g : Glance}
    (h : w.glance r k id now = g) : Found r w k id now g := by
  subst h
  unfold Watch.glance
  split
  · next hshut => exact hshut
  · next hshut =>
    rw [Bool.not_eq_true] at hshut
    split
    · next hdue =>
      split
      · next hnone => exact ⟨hshut, hdue, Clock.nextBeat?_delay_eq_none_iff.1 hnone⟩
      · next due hnext =>
        split
        · next hp =>
          rw [Bool.not_eq_true'] at hp
          exact ⟨hshut, hdue, hp⟩
        · next hp =>
          rw [Bool.not_eq_true', Bool.not_eq_false] at hp
          split
          · next hdl => exact ⟨hshut, hdue, hp, hdl⟩
          · next hdl => exact ⟨hshut, hdue, hp, Nat.lt_of_not_le hdl, hnext⟩
    · next hdue => exact ⟨hshut, Nat.lt_of_not_le hdue⟩

/-! ### What a step does to a watchdog -/

theorem sentries_le (h : RunUnder ok r n past s) :
    s.sentries.map Sentry.job ≤ jobs Act.dispatched? past := by
  rw [dispatched_eq h]
  exact Multiset.le_add_right _ _

/-- A job has one watchdog at most. -/
theorem sentries_nodup (h : RunUnder ok r n past s) : (s.sentries.map Sentry.job).Nodup :=
  Multiset.nodup_of_le (sentries_le h) (Multiset.coe_nodup.2 (dispatched_nodup h))

theorem watched_of_sentry (h : RunUnder ok r n past s) {x : Sentry} (hx : x ∈ s.sentries) :
    x.job ∈ watched past := by
  have hmem := Multiset.mem_map_of_mem Sentry.job hx
  have hn := Multiset.coe_nodup.2 (dispatched_nodup h)
  -- a job that has a watchdog and one whose watchdog closed are different hand-overs
  rw [dispatched_eq h, Multiset.nodup_add] at hn
  refine mem_watched.2 ⟨Multiset.subset_of_le (sentries_le h) hmem, fun hc => ?_⟩
  exact Multiset.disjoint_left.1 hn.2.2 hmem (Multiset.mem_add.2 (.inr hc))

/-- The job whose watchdog an act is of. -/
def Act.guarded? : Act → Option Job
  | awake job _ => some job
  | faint job => some job
  | watch job _ => some job
  | falter job => some job
  | close job _ _ => some job
  | _ => none

/-- Where a watchdog that is there after a step comes from. -/
inductive SentryStep (r : Routine) (s : Engine) (e : Act) (x : Sentry) : Prop
  | kept (hx : x ∈ s.sentries) (he : e.guarded? ≠ some x.job)
  | posted (he : e = .dispatch x.job) (hx : x.watch = none)
  | awoke (w : Watch) (he : e = .awake x.job s.now) (hx : x.watch = some w)
      (hs : ⟨x.job, none⟩ ∈ s.sentries) (hw : Watch.begin? r x.job.timeout s.now = some w)
  | looked (w : Watch) (due : Instant) (he : e = .watch x.job s.now)
      (hx : x.watch = some { w with due := due }) (hs : ⟨x.job, some w⟩ ∈ s.sentries)
      (hg : w.glance r s.collector x.job.id s.now = .again due)

/-- The watchdogs of other jobs stay as they are. -/
theorem SentryStep.ofRest (h : RunUnder ok r n past s) {x y : Sentry} {rest : Multiset Sentry}
    (hs : s.sentries = y ::ₘ rest) (he : e.guarded? = some y.job) (hx : x ∈ rest) :
    SentryStep r s e x := by
  have hn := sentries_nodup h
  rw [hs, Multiset.map_cons, Multiset.nodup_cons] at hn
  refine .kept (hs ▸ Multiset.mem_cons_of_mem hx) fun hx' => hn.1 ?_
  rw [Option.some.inj (he.symm.trans hx')]
  exact Multiset.mem_map_of_mem Sentry.job hx

theorem Step.sentry (hs : Step r s e s') (h : RunUnder ok r n past s) {x : Sentry}
    (hx : x ∈ s'.sentries) : SentryStep r s e x := by
  cases hs with
  | dispatch =>
    rcases Multiset.mem_cons.1 hx with rfl | hx
    · exact .posted rfl rfl
    · exact .kept hx nofun
  | awake hs hw =>
    -- the watchdog is the one of the act, or one of the others
    rcases Multiset.mem_cons.1 hx with rfl | hx
    · exact .awoke _ rfl rfl (hs ▸ Multiset.mem_cons_self _ _) hw
    · exact .ofRest h hs rfl hx
  | watch hs hg =>
    rcases Multiset.mem_cons.1 hx with rfl | hx
    · exact .looked _ _ rfl rfl (hs ▸ Multiset.mem_cons_self _ _) hg
    · exact .ofRest h hs rfl hx
  | faint hs | falter hs | close hs => exact .ofRest h hs rfl hx
  | _ => exact .kept hx nofun

/-- Only a job with a watchdog is waked for. -/
theorem dispatched_of_awake (h : RunUnder ok r n past s) (hb : .awake job b ∈ past) :
    job ∈ jobs Act.dispatched? past := by
  induction h with
  | start => cases hb
  | step h hs _ ih =>
    refine mem_jobs_cons.2 (.inl ?_)
    rcases List.mem_cons.1 hb with rfl | hb
    · cases hs with
      | awake hs =>
        have hmem := Multiset.mem_map_of_mem Sentry.job (hs ▸ Multiset.mem_cons_self _ _)
        exact Multiset.subset_of_le (sentries_le h) hmem
    · exact ih hb

/-! ### Prompt runs -/

/-- The instant of a look: so many periods after the watchdog began. -/
def beat (r : Routine) (b : Instant) (k : Nat) : Instant := b + k * r.poll.nanos

/-- The instant from which on a watchdog gives up on its job. -/
def deadline (r : Routine) (job : Job) (b : Instant) : Instant :=
  b + job.timeout.nanos + r.grace.nanos

/-- The clock shows the instants at which a watchdog looks, and timers go off at
these instants. -/
def OnTime (r : Routine) (job : Job) (b : Instant) : Prop :=
  ∀ k, beat r b k < deadline r job b + r.poll.nanos →
    r.clock.alarm (beat r b k) = beat r b k ∧ beat r b k < r.clock.limit

/-- Where the grain of the timers divides the instants of the looks, they go off at
these instants. -/
theorem OnTime.of_grain (hg : 0 < r.clock.grain) (hb : r.clock.grain ∣ b)
    (hp : r.clock.grain ∣ r.poll.nanos)
    (hlast : deadline r job b + r.poll.nanos ≤ r.clock.lastAlarm)
    (hlimit : deadline r job b + r.poll.nanos ≤ r.clock.limit) : OnTime r job b := by
  intro k hk
  have hdvd : r.clock.grain ∣ beat r b k := Nat.dvd_add hb (Dvd.dvd.mul_left hp k)
  have hle : beat r b k ≤ r.clock.lastAlarm := Nat.le_trans (Nat.le_of_lt hk) hlast
  exact ⟨Clock.alarm_of_dvd hg hdvd hle, Nat.lt_of_lt_of_le hk hlimit⟩

/-- Time passes only while every watchdog waits for a timer, and not beyond that
timer. -/
def Prompt (r : Routine) (s : Engine) (e : Act) : Prop :=
  ∀ t, e = .elapse t → ∀ x ∈ s.sentries, ∃ w, x.watch = some w ∧
    w.glance r s.collector x.job.id s.now = .sleep ∧ t ≤ r.clock.alarm w.due

/-- While the clock stands still every act is prompt. -/
theorem prompt_of_still (he : ∀ t, e ≠ .elapse t) : Prompt r s e :=
  fun t ht => absurd ht (he t)

/-- A look at this instant found the job under way. -/
def Looked (past : List Act) (job : Job) (t : Instant) : Prop :=
  ∃ later earlier, past = later ++ .watch job t :: earlier ∧ ¬Settled earlier job

theorem Looked.cons {t : Instant} (h : Looked past job t) : Looked (e :: past) job t := by
  obtain ⟨later, earlier, rfl, hset⟩ := h
  exact ⟨e :: later, earlier, rfl, hset⟩

/-- What is true of a watchdog between two looks: it began when it was waked,
time has stood still since a shutdown was requested, and each look so far, one
period after the other, found the job under way before the deadline. -/
structure Watching (r : Routine) (past : List Act) (s : Engine) (job : Job) (w : Watch) :
    Prop where
  began : ∀ t, .awake job t ∈ past ↔ t = w.began
  began_le : w.began ≤ s.now
  deadline_eq : w.deadline = deadline r job w.began
  poll_pos : 0 < r.poll.nanos
  shut : ∀ t, .shutdown t ∈ past → s.now = max t w.began
  looks : OnTime r job w.began → s.now ≤ w.due ∧ ∃ k, w.due = beat r w.began k ∧
    ∀ i < k, beat r w.began i < deadline r job w.began ∧ Looked past job (beat r w.began i)

/-- What is true of a watchdog, which has not been waked or is watching. -/
def Vigil (r : Routine) (past : List Act) (s : Engine) (x : Sentry) : Prop :=
  match x.watch with
  | none => ∀ t, .awake x.job t ∉ past
  | some w => Watching r past s x.job w

theorem beat_zero (r : Routine) (b : Instant) : beat r b 0 = b := by
  rw [beat, Nat.zero_mul, Nat.add_zero]

theorem beat_succ (r : Routine) (b : Instant) (k : Nat) :
    beat r b (k + 1) = beat r b k + r.poll.nanos := by
  rw [beat, beat, Nat.succ_mul, Nat.add_assoc]

theorem le_deadline (r : Routine) (job : Job) (b : Instant) : b ≤ deadline r job b :=
  Nat.le_trans (Nat.le_add_right _ _) (Nat.le_add_right _ _)

/-- The next look is less than a period after the deadline. -/
theorem beat_lt {k : Nat} (hp : 0 < r.poll.nanos)
    (h : ∀ i < k, beat r b i < deadline r job b) :
    beat r b k < deadline r job b + r.poll.nanos := by
  cases k with
  | zero =>
    rw [beat_zero]
    exact Nat.lt_of_le_of_lt (le_deadline r job b) (Nat.lt_add_of_pos_right hp)
  | succ k =>
    rw [beat_succ]
    exact Nat.add_lt_add_right (h k (Nat.lt_succ_self k)) _

/-- Whoever watches between two looks goes on watching. -/
theorem Watching.keep {w : Watch} (hw : Watching r past s job w) (h : RunUnder ok r n past s)
    (hs : Step r s e s') (hp : Prompt r s e) (hx : ⟨job, some w⟩ ∈ s.sentries)
    (he : e.guarded? ≠ some job) : Watching r (e :: past) s' job w := by
  have hbegan : ∀ t, .awake job t ∈ e :: past ↔ t = w.began := fun t => by
    rw [List.mem_cons, ← hw.began]
    exact ⟨fun ht => ht.resolve_left fun hte => he (hte ▸ rfl), .inr⟩
  by_cases helapse : ∃ t, e = .elapse t
  · obtain ⟨t, rfl⟩ := helapse
    obtain ⟨w', hw', hsleep, hle⟩ := hp t rfl _ hx
    cases hw'
    -- time passes: nobody has asked for a shutdown, and the alarm is still to come
    have hnow : s'.now = t := by cases hs; rfl
    have hshut : ∀ t', .shutdown t' ∉ past := by
      intro t' ht'
      have hflag := (shutdown_iff h).2 ⟨t', ht'⟩
      rw [(of_glance hsleep).1] at hflag
      cases hflag
    refine ⟨hbegan, Nat.le_trans hw.began_le hs.now_le, hw.deadline_eq, hw.poll_pos,
      fun t' ht' => ?_, fun hot => ?_⟩
    · rcases List.mem_cons.1 ht' with ht' | ht'
      · cases ht'
      · exact absurd ht' (hshut t')
    · obtain ⟨-, k, hk, hlooks⟩ := hw.looks hot
      refine ⟨?_, k, hk, fun i hi => ⟨(hlooks i hi).1, (hlooks i hi).2.cons⟩⟩
      have halarm := (hot k (beat_lt hw.poll_pos fun i hi => (hlooks i hi).1)).1
      rw [hnow, hk, ← halarm, ← hk]
      exact hle
  · have hnow := hs.now_eq fun t ht => helapse ⟨t, ht⟩
    refine ⟨hbegan, hnow ▸ hw.began_le, hw.deadline_eq, hw.poll_pos, fun t ht => ?_,
      fun hot => ?_⟩
    · rcases List.mem_cons.1 ht with rfl | ht
      · rw [hs.shutdown_now.1, hnow, Nat.max_eq_left hw.began_le]
      · rw [hnow]; exact hw.shut t ht
    · obtain ⟨hle, k, hk, hlooks⟩ := hw.looks hot
      exact ⟨hnow ▸ hle, k, hk, fun i hi => ⟨(hlooks i hi).1, (hlooks i hi).2.cons⟩⟩

/-- Whoever begins to watch has not looked yet. -/
theorem Watching.start {w : Watch} (h : RunUnder ok r n past s)
    (hs : Step r s (.awake job s.now) s') (hnew : ∀ t, .awake job t ∉ past)
    (hw : Watch.begin? r job.timeout s.now = some w) :
    Watching r (.awake job s.now :: past) s' job w := by
  obtain ⟨rfl, hp⟩ := begin?_eq_some hw
  have hnow : s'.now = s.now := hs.now_eq nofun
  refine ⟨fun t => ?_, hnow ▸ Nat.le_refl _, rfl, hp, fun t ht => ?_, fun hot => ?_⟩
  · rw [List.mem_cons, or_iff_left (hnew t), Act.awake.injEq]
    exact ⟨And.right, fun ht => ⟨rfl, ht⟩⟩
  · rcases List.mem_cons.1 ht with ht | ht
    · cases ht
    · rw [hnow, Nat.max_eq_right (shutdown_le h ht)]
  · exact ⟨hnow ▸ Nat.le_refl _, 0, by simp [beat], nofun⟩

/-- Once its alarm has gone off, a watchdog is at one of its beats. -/
theorem Watching.at_beat {w : Watch} (hw : Watching r past s job w) (hot : OnTime r job w.began)
    (hal : r.clock.alarm w.due ≤ s.now) : ∃ k, w.due = beat r w.began k ∧
      s.now = beat r w.began k ∧
      ∀ i < k, beat r w.began i < deadline r job w.began ∧ Looked past job (beat r w.began i) := by
  obtain ⟨hle, k, hk, hlooks⟩ := hw.looks hot
  have halarm := (hot k (beat_lt hw.poll_pos fun i hi => (hlooks i hi).1)).1
  -- the alarm is not early, and no time passed after it
  rw [hk, halarm] at hal
  exact ⟨k, hk, Nat.le_antisymm (hk ▸ hle) hal, hlooks⟩

/-- A look that finds the job under way before the deadline is one look more. -/
theorem Watching.look {w : Watch} {due : Instant} (hw : Watching r past s job w)
    (h : RunUnder ok r n past s) (hd : Distinct past) (hs : Step r s (.watch job s.now) s')
    (hx : ⟨job, some w⟩ ∈ s.sentries)
    (hg : w.glance r s.collector job.id s.now = .again due) :
    Watching r (.watch job s.now :: past) s' job { w with due := due } := by
  have hnow : s'.now = s.now := hs.now_eq nofun
  obtain ⟨-, hal, hpend, hdl, hnext⟩ := of_glance hg
  have hset := (pending_iff h hd (watched_of_sentry h hx)).1 hpend
  refine ⟨fun t => ?_, hnow ▸ hw.began_le, hw.deadline_eq, hw.poll_pos, fun t ht => ?_,
    fun hot => ?_⟩
  · rw [List.mem_cons, or_iff_right nofun]; exact hw.began t
  · rw [hnow]
    exact hw.shut t ((List.mem_cons.1 ht).resolve_left nofun)
  · obtain ⟨k, hk, hat, hlooks⟩ := hw.at_beat hot hal
    have hlooks' : ∀ i < k + 1, beat r w.began i < deadline r job w.began ∧
        Looked (.watch job s.now :: past) job (beat r w.began i) := by
      intro i hi
      rcases Nat.lt_succ_iff_lt_or_eq.1 hi with hi | rfl
      · exact ⟨(hlooks i hi).1, (hlooks i hi).2.cons⟩
      · rw [← hat, ← hw.deadline_eq]
        exact ⟨hdl, [], past, rfl, hset⟩
    obtain rfl : due = beat r w.began (k + 1) := by
      have hshown := (hot (k + 1) (beat_lt hw.poll_pos fun i hi => (hlooks' i hi).1)).2
      rw [beat_succ, ← hk] at hshown ⊢
      -- the alarm was not late, so the beats do not shift
      rw [hat, ← hk, Clock.nextBeat?_of_le (Nat.le_add_right _ _), Clock.later?,
        if_pos hshown] at hnext
      exact (Option.some.inj hnext).symm
    refine ⟨?_, k + 1, rfl, hlooks'⟩
    show s'.now ≤ beat r w.began (k + 1)
    rw [hnow, hat, beat_succ]
    exact Nat.le_add_right _ _

/-- Every prompt run keeps the watchdogs watching. -/
theorem vigil (h : RunUnder (Prompt r) r n past s) (hd : Distinct past) :
    ∀ x ∈ s.sentries, Vigil r past s x := by
  induction h with
  | start => exact fun x hx => by cases hx
  | @step past s s' e h hs hp ih =>
    intro x hx
    have ih := ih hd.of_cons
    cases hs.sentry h hx with
    | kept hx he =>
      have hv := ih x hx
      obtain ⟨job, watch⟩ := x
      cases watch with
      | none =>
        exact fun t ht => (List.mem_cons.1 ht).elim (fun hte => he (hte ▸ rfl)) (hv t)
      | some w => exact hv.keep h hs hp hx he
    | posted he hx =>
      obtain ⟨job, watch⟩ := x
      subst he hx
      intro t ht
      -- whoever was waked for the job before had it from an earlier hand-over
      have hbefore := dispatched_of_awake h ((List.mem_cons.1 ht).resolve_left nofun)
      exact notMem_of_nodup (dispatched_nodup (h.step hs hp)) rfl hbefore
    | awoke w he hx hsen hw =>
      obtain ⟨job, watch⟩ := x
      subst he hx
      exact Watching.start h hs (ih _ hsen) hw
    | looked w due he hx hsen hg =>
      obtain ⟨job, watch⟩ := x
      subst he hx
      exact Watching.look (ih _ hsen) h hd.of_cons hs hsen hg

/-- A watchdog that was waked watches until it closes, unless it fails. -/
theorem closed_or_watching (h : RunUnder ok r n past s) (hb : .awake job b ∈ past)
    (hon : .falter job ∉ past) :
    job ∈ jobs Act.closed? past ∨ ∃ w, ⟨job, some w⟩ ∈ s.sentries := by
  induction h with
  | start => cases hb
  | @step past s s' e h hs _ ih =>
    rcases List.mem_cons.1 hb with rfl | hb
    · cases hs with
      | awake hs hw => exact .inr ⟨_, Multiset.mem_cons_self _ _⟩
    · rcases ih hb (List.not_mem_of_not_mem_cons hon) with hc | ⟨w, hx⟩
      · exact .inl (mem_jobs_cons.2 (.inl hc))
      · cases hs with
        | dispatch => exact .inr ⟨w, Multiset.mem_cons_of_mem hx⟩
        | awake hs | faint hs =>
          rw [hs] at hx
          have hrest := (Multiset.mem_cons.1 hx).resolve_left (by simp)
          first | exact .inr ⟨w, hrest⟩ | exact .inr ⟨w, Multiset.mem_cons_of_mem hrest⟩
        | watch hs hg =>
          rw [hs] at hx
          rcases Multiset.mem_cons.1 hx with hx | hrest
          · cases hx; exact .inr ⟨_, Multiset.mem_cons_self _ _⟩
          · exact .inr ⟨w, Multiset.mem_cons_of_mem hrest⟩
        | falter hs hg =>
          rw [hs] at hx
          rcases Multiset.mem_cons.1 hx with hx | hrest
          · cases hx; exact absurd List.mem_cons_self hon
          · exact .inr ⟨w, hrest⟩
        | close hs hg =>
          rw [hs] at hx
          rcases Multiset.mem_cons.1 hx with hx | hrest
          · cases hx; exact .inl (mem_jobs_cons.2 (.inr rfl))
          · exact .inr ⟨w, hrest⟩
        | _ => exact .inr ⟨w, hx⟩

theorem Distinct.of_append (h : Distinct (later ++ earlier)) :
    Distinct earlier := by
  induction later with
  | nil => exact h
  | cons _ later ih => exact ih h.of_cons

/-- A watchdog is waked once. -/
theorem awake_eq (h : RunUnder (Prompt r) r n (later ++ earlier) s)
    (hd : Distinct (later ++ earlier)) {t : Instant} (hb : .awake job b ∈ later ++ earlier)
    (ht : .awake job t ∈ earlier) : .awake job b ∈ earlier := by
  rcases List.mem_append.1 hb with hb | hb
  · obtain ⟨front, back, rfl⟩ := List.append_of_mem hb
    rw [List.append_assoc, List.cons_append] at h hd
    obtain ⟨s₁, s₂, h₁, hs⟩ := h.split
    cases hs with
    | awake hs hw =>
      have hnew := vigil h₁ hd.of_append.of_cons _ (hs ▸ Multiset.mem_cons_self _ _)
      exact absurd (List.mem_append_right back ht) (hnew t)
  · exact hb

/-- A watchdog that is never too late does not fail. -/
theorem not_falter (h : RunUnder (Prompt r) r n past s) (hd : Distinct past)
    (hb : .awake job b ∈ past)
    (hearly : ∀ {earlier : List Act} {s₁ : Engine} {w : Watch},
      RunUnder (Prompt r) r n earlier s₁ → Distinct earlier → ⟨job, some w⟩ ∈ s₁.sentries →
        w.began = b → s₁.now ≤ w.due + Clock.tolerance) : .falter job ∉ past := by
  intro hmem
  obtain ⟨later, earlier, rfl⟩ := List.append_of_mem hmem
  obtain ⟨s₁, s₂, h₁, hs⟩ := h.split
  cases hs with
  | @falter _ w _ hsen hg =>
    have hd₁ := hd.of_append.of_cons
    have hx : ⟨job, some w⟩ ∈ s₁.sentries := hsen ▸ Multiset.mem_cons_self _ _
    have hw : Watching r earlier s₁ job w := vigil h₁ hd₁ _ hx
    have hb₁ := awake_eq h hd hb (List.mem_cons_of_mem _ ((hw.began _).2 rfl))
    have hbegan := (hw.began b).1 ((List.mem_cons.1 hb₁).resolve_left nofun)
    exact Nat.not_lt.2 (hearly h₁ hd₁ hx hbegan.symm) (of_glance hg).2.2.1

/-- A watchdog that was waked and has not closed is watching since then. -/
theorem watching (h : RunUnder (Prompt r) r n past s) (hd : Distinct past)
    (hb : .awake job b ∈ past) (hot : OnTime r job b) (hopen : job ∉ jobs Act.closed? past) :
    ∃ w, ⟨job, some w⟩ ∈ s.sentries ∧ w.began = b ∧ Watching r past s job w := by
  have hon : .falter job ∉ past := not_falter h hd hb fun h₁ hd₁ hx hbegan => by
    have hw₁ : Watching r _ _ job _ := vigil h₁ hd₁ _ hx
    exact Nat.le_trans (hw₁.looks (hbegan ▸ hot)).1 (Nat.le_add_right _ _)
  obtain ⟨w, hx⟩ := (closed_or_watching h hb hon).resolve_left hopen
  have hw : Watching r past s job w := vigil h hd _ hx
  exact ⟨w, hx, ((hw.began b).1 hb).symm, hw⟩

/-! ### Verdicts -/

/-- Steps of watchdogs leave the tracker and the queues alone. -/
theorem Step.guarded_frame (h : Step r s e s') (he : e.guarded? = some job) :
    s'.collector.ledgers = s.collector.ledgers ∧ s'.collector.queues = s.collector.queues := by
  cases h with
  | awake | faint | watch | falter | close => exact ⟨rfl, rfl⟩
  | _ => cases he

/-- When another job of its target is admitted, a job with a watchdog is settled. -/
theorem settled_of_admitted (h : RunUnder ok r n (later ++ .reserve other .admitted :: earlier) s)
    (hd : Distinct (later ++ .reserve other .admitted :: earlier))
    (hj : job ∈ jobs Act.dispatched? earlier) (hc : other.category = job.category)
    (ht : other.target = job.target) :
    Settled (later ++ .reserve other .admitted :: earlier) job := by
  obtain ⟨s₁, s₂, h₁, hs⟩ := h.split
  have hd₁ := hd.of_append.of_cons
  have hb := books h₁ hd₁ job.category
  by_contra hset
  have hset₁ : ¬Settled earlier job := fun ⟨c, hmem⟩ =>
    hset ⟨c, List.mem_append_right _ (List.mem_cons_of_mem _ hmem)⟩
  have hmark := (hb.marks job.target job.id).2
    ⟨job, (live_iff_of_dispatched h₁ hj).2 hset₁, rfl, rfl, rfl⟩
  -- the other job could not have been admitted while the target was marked
  cases hs.ledger job.category with
  | reserve new a he hcat ha =>
    cases he
    rcases Ledger.reserve_eq hb.sound other.target other.id with ⟨-, hr⟩ | ⟨-, hr⟩ | ⟨-, hnone, -⟩
    · rw [hr] at ha; cases ha
    · rw [hr] at ha; cases ha
    · rw [ht, hmark] at hnone; cases hnone
  | still hl ha => exact ha other rfl hc
  | register _ _ ha | depth _ _ ha => cases ha
  | withdraw _ _ he | begin _ _ _ he | settle _ _ _ _ he => cases he

/-- Some step does this act. -/
def Enabled (r : Routine) (s : Engine) (e : Act) : Prop := ∃ s', Step r s e s'

/-- A watchdog that can look finds its job settled and closes, or finds the deadline
reached and closes, or goes on. -/
structure LookEnabled (r : Routine) (past : List Act) (s : Engine) (job : Job) (b : Instant) :
    Prop where
  completed : Settled past job → Enabled r s (.close job .completed s.now)
  timedOut : ¬Settled past job → deadline r job b ≤ s.now →
    Enabled r s (.close job .timedOut s.now)
  goesOn : ¬Settled past job → s.now < deadline r job b → Enabled r s (.watch job s.now)

/-- Nothing keeps a watchdog from closing after a shutdown. -/
theorem enabled_shutdown {w : Watch} (hx : ⟨job, some w⟩ ∈ s.sentries)
    (hf : s.collector.shutdown = true) : Enabled r s (.close job .shutdown s.now) := by
  obtain ⟨rest, hs⟩ := Multiset.exists_cons_of_mem hx
  have hg : w.glance r s.collector job.id s.now = .close .shutdown := by simp [Watch.glance, hf]
  exact ⟨_, .close hs hg⟩

/-- Nothing keeps a watchdog from looking once its alarm has gone off, unless it is too
late. -/
theorem Watching.enabled_look {w : Watch} (hw : Watching r past s job w)
    (h : RunUnder ok r n past s) (hd : Distinct past) (hx : ⟨job, some w⟩ ∈ s.sentries)
    (hf : s.collector.shutdown = false) (hal : r.clock.alarm w.due ≤ s.now)
    (hearly : s.now ≤ w.due + Clock.tolerance) :
    LookEnabled r past s job w.began := by
  obtain ⟨rest, hs⟩ := Multiset.exists_cons_of_mem hx
  have hpend := pending_iff h hd (watched_of_sentry h hx)
  rw [← not_iff_not, not_not, Bool.not_eq_true] at hpend
  cases hg : w.glance r s.collector job.id s.now with
  | sleep => exact absurd hal (Nat.not_le_of_lt (of_glance hg).2)
  | fail => exact absurd (of_glance hg).2.2.1 (Nat.not_lt.2 hearly)
  | again due =>
    obtain ⟨-, -, hp, hdl, -⟩ := of_glance hg
    have hset : ¬Settled past job := fun hset => by simp [hpend.2 hset] at hp
    rw [hw.deadline_eq] at hdl
    exact ⟨fun hyes => absurd hyes hset, fun _ hle => absurd hle (Nat.not_le_of_lt hdl),
      fun _ _ => ⟨_, .watch hs hg⟩⟩
  | close v =>
    cases v with
    | shutdown =>
      have hshut : s.collector.shutdown = true := of_glance hg
      rw [hf] at hshut
      cases hshut
    | completed =>
      have hset := hpend.1 (of_glance hg).2.2
      exact ⟨fun _ => ⟨_, .close hs hg⟩, fun hno => absurd hset hno, fun hno => absurd hset hno⟩
    | timedOut =>
      obtain ⟨-, -, hp, hdl⟩ := of_glance hg
      have hset : ¬Settled past job := fun hset => by simp [hpend.2 hset] at hp
      rw [hw.deadline_eq] at hdl
      exact ⟨fun hyes => absurd hyes hset, fun _ _ => ⟨_, .close hs hg⟩,
        fun _ hlt => absurd hdl (Nat.not_le_of_lt hlt)⟩

/-- Between two looks: the last one was less than a period ago and found the job
under way before the deadline, and time stands still after a shutdown.  Nothing
keeps the watchdog from the next look at its instant, or from closing after a
shutdown. -/
theorem open_watch (h : RunUnder (Prompt r) r n past s) (hd : Distinct past)
    (hb : .awake job b ∈ past) (hot : OnTime r job b) (hopen : job ∉ jobs Act.closed? past) :
    (∀ t, .shutdown t ∈ past → s.now = max t b ∧ Enabled r s (.close job .shutdown s.now)) ∧
    ∃ k, s.now ≤ beat r b k ∧ beat r b k < deadline r job b + r.poll.nanos ∧
      (∀ i < k, beat r b i < deadline r job b ∧ Looked past job (beat r b i)) ∧
      ((∀ t, .shutdown t ∉ past) → s.now = beat r b k → LookEnabled r past s job b) := by
  obtain ⟨w, hx, rfl, hw⟩ := watching h hd hb hot hopen
  obtain ⟨hle, k, hk, hlooks⟩ := hw.looks hot
  have hlt := beat_lt hw.poll_pos fun i hi => (hlooks i hi).1
  refine ⟨fun t ht => ⟨hw.shut t ht, ?_⟩, k, hk ▸ hle, hlt, hlooks, fun hno hat => ?_⟩
  · exact enabled_shutdown hx ((shutdown_iff h).2 ⟨t, ht⟩)
  · have hearly : s.now ≤ w.due + Clock.tolerance := Nat.le_trans hle (Nat.le_add_right _ _)
    refine hw.enabled_look h hd hx (shutdown_eq_false h hno) ?_ hearly
    rw [hk, (hot k hlt).1, hat]

/-- A look takes place at a beat that is the first from the deadline on, if it is not before
the deadline. -/
theorem Watching.first_look {w : Watch} (hw : Watching r past s job w)
    (hot : OnTime r job w.began) (hal : r.clock.alarm w.due ≤ s.now) :
    (∃ k, s.now = beat r w.began k ∧
      ∀ i < k, beat r w.began i < deadline r job w.began ∧ Looked past job (beat r w.began i)) ∧
    s.now < deadline r job w.began + r.poll.nanos ∧
    ∀ m, deadline r job w.began ≤ beat r w.began m → s.now ≤ beat r w.began m := by
  obtain ⟨k, -, hat, hlooks⟩ := hw.at_beat hot hal
  refine ⟨⟨k, hat, hlooks⟩, hat ▸ beat_lt hw.poll_pos fun i hi => (hlooks i hi).1, fun m hm => ?_⟩
  -- a beat at or after the deadline is none of the looks so far
  have hkm : k ≤ m := Nat.le_of_not_lt fun hmk => Nat.not_lt.2 hm (hlooks m hmk).1
  rw [hat]
  exact Nat.add_le_add_left (Nat.mul_le_mul_right _ hkm) _

/-- A watchdog closes at the instant of a shutdown, or else at the first look that
finds the job settled or the deadline reached. -/
theorem closing_watch (h : RunUnder (Prompt r) r n earlier s) (hd : Distinct earlier)
    (hb : .awake job b ∈ earlier) (hot : OnTime r job b) {v : Collector.Verdict} {q : Instant}
    (hs : Step r s (.close job v q) s') :
    (∀ t, .shutdown t ∈ earlier → v = .shutdown ∧ q = max t b) ∧
    ((∀ t, .shutdown t ∉ earlier) →
      (∃ k, q = beat r b k ∧
        ∀ i < k, beat r b i < deadline r job b ∧ Looked earlier job (beat r b i)) ∧
      q < deadline r job b + r.poll.nanos ∧ (∀ m, deadline r job b ≤ beat r b m → q ≤ beat r b m) ∧
      (v = .completed ∧ Settled earlier job ∨
        v = .timedOut ∧ ¬Settled earlier job ∧ deadline r job b ≤ q)) := by
  cases hs with
  | @close _ w _ _ hsen hg =>
    have hx : ⟨job, some w⟩ ∈ s.sentries := hsen ▸ Multiset.mem_cons_self _ _
    have hw : Watching r earlier s job w := vigil h hd _ hx
    obtain rfl : w.began = b := ((hw.began b).1 hb).symm
    have hpend := pending_iff h hd (watched_of_sentry h hx)
    cases v with
    | shutdown =>
      obtain ⟨t, ht⟩ := (shutdown_iff h).1 (of_glance hg)
      exact ⟨fun t ht => ⟨rfl, hw.shut t ht⟩, fun hno => absurd ht (hno t)⟩
    | completed =>
      obtain ⟨hf, hal, hp⟩ := of_glance hg
      rw [← Bool.not_eq_true, hpend, not_not] at hp
      refine ⟨fun t ht => ?_, fun _ => ?_⟩
      · rw [(shutdown_iff h).2 ⟨t, ht⟩] at hf
        cases hf
      · obtain ⟨hbeat, hlt, hfirst⟩ := hw.first_look hot hal
        exact ⟨hbeat, hlt, hfirst, .inl ⟨rfl, hp⟩⟩
    | timedOut =>
      obtain ⟨hf, hal, hp, hdl⟩ := of_glance hg
      refine ⟨fun t ht => ?_, fun _ => ?_⟩
      · rw [(shutdown_iff h).2 ⟨t, ht⟩] at hf
        cases hf
      · obtain ⟨hbeat, hlt, hfirst⟩ := hw.first_look hot hal
        exact ⟨hbeat, hlt, hfirst, .inr ⟨rfl, hpend.1 hp, hw.deadline_eq ▸ hdl⟩⟩

/-- In every prompt run, a watchdog that began at `b` looks at `b` and then once a
period.  While it is open, the looks so far found the job under way before the
deadline, the next one is at hand and nothing keeps the watchdog from it, and time
stands still after a shutdown until it closes; the tracker shows the job until the
worker settles it.  It closes as a shutdown at the instant of the shutdown.
Without one it closes at the first look that finds the job settled or the deadline
reached: as completed if the job was settled before this look, even if the
deadline was reached too, and else as timed out.
A job of the same target that is admitted later finds the old one settled, and
no step of a watchdog changes the tracker or a queue. -/
theorem watchdog_verdict (h : RunUnder (Prompt r) r n past s) (hd : Distinct past)
    (hb : .awake job b ∈ past) (hot : OnTime r job b) :
    (job ∉ jobs Act.closed? past →
      (∀ t, .shutdown t ∈ past → s.now = max t b ∧ Enabled r s (.close job .shutdown s.now)) ∧
      (∃ k, s.now ≤ beat r b k ∧ beat r b k < deadline r job b + r.poll.nanos ∧
        (∀ i < k, beat r b i < deadline r job b ∧ Looked past job (beat r b i)) ∧
        ((∀ t, .shutdown t ∉ past) → s.now = beat r b k → LookEnabled r past s job b)) ∧
      ((s.ledger job.category).shows job.target job.id = true ↔ ¬Settled past job)) ∧
    (∀ later v q earlier, past = later ++ .close job v q :: earlier →
      (∀ t, .shutdown t ∈ earlier → v = .shutdown ∧ q = max t b) ∧
      ((∀ t, .shutdown t ∉ earlier) →
        (∃ k, q = beat r b k ∧
          ∀ i < k, beat r b i < deadline r job b ∧ Looked earlier job (beat r b i)) ∧
        q < deadline r job b + r.poll.nanos ∧
        (∀ m, deadline r job b ≤ beat r b m → q ≤ beat r b m) ∧
        (v = .completed ∧ Settled earlier job ∨
          v = .timedOut ∧ ¬Settled earlier job ∧ deadline r job b ≤ q))) ∧
    (∀ later other earlier, past = later ++ .reserve other .admitted :: earlier →
      .awake job b ∈ earlier → other.category = job.category → other.target = job.target →
        Settled past job) ∧
    ∀ s₁ e s₂, Step r s₁ e s₂ → e.guarded? = some job →
      s₂.collector.ledgers = s₁.collector.ledgers ∧
        s₂.collector.queues = s₁.collector.queues := by
  refine ⟨fun hopen => ?_, ?_, ?_, fun s₁ e s₂ hs he => hs.guarded_frame he⟩
  · obtain ⟨hshut, hlooks⟩ := open_watch h hd hb hot hopen
    exact ⟨hshut, hlooks, shows_iff h hd (dispatched_of_awake h hb)⟩
  · rintro later v q earlier rfl
    obtain ⟨s₁, s₂, h₁, hs⟩ := h.split
    have hd₁ := hd.of_append.of_cons
    cases hs with
    | @close _ w _ _ hsen hg =>
      have hw : Watching r earlier s₁ job w :=
        vigil h₁ hd₁ ⟨job, some w⟩ (hsen ▸ Multiset.mem_cons_self _ _)
      have hbegan := awake_eq h hd hb (List.mem_cons_of_mem _ ((hw.began _).2 rfl))
      exact closing_watch h₁ hd₁ ((List.mem_cons.1 hbegan).resolve_left nofun) hot (.close hsen hg)
  · rintro later other earlier rfl hb₁ hc ht
    obtain ⟨s₁, s₂, h₁, hs⟩ := h.split
    exact settled_of_admitted h hd (dispatched_of_awake h₁ hb₁) hc ht

/-- A routine whose watchdogs look once a second and wait no longer than asked. -/
def hastyRoutine : Routine := { Routine.standard with poll := .ofSecs 1, grace := .zero }

/-- A job with a second of time, which no worker takes: the look at the deadline
gives up on it. -/
theorem watchdog_verdict_at_deadline : ∃ earlier s job,
    RunUnder (Prompt hastyRoutine) hastyRoutine 1 (.close job .timedOut (10 ^ 9) :: earlier) s ∧
      ¬Settled earlier job ∧ deadline hastyRoutine job 0 ≤ 10 ^ 9 ∧
      10 ^ 9 < deadline hastyRoutine job 0 + 10 ^ 9 := by
  have hprompt : ∀ s e, (∀ t, e ≠ .elapse t) → Prompt hastyRoutine s e :=
    fun _ _ => prompt_of_still
  have h₀ : RunUnder (Prompt hastyRoutine) hastyRoutine 1 [] _ := .start rfl
  have h₁ := h₀.step (.register _ { sampleTarget with timeout := .ofSecs 1 })
    (hprompt _ _ (by simp))
  obtain ⟨s, job, h₂, hsen, hout, hnow, hshut⟩ : ∃ s job,
      RunUnder (Prompt hastyRoutine) hastyRoutine 1
        [.dispatch job, .enqueue job none, .reserve job .admitted, .draw job,
          .register { sampleTarget with timeout := .ofSecs 1 }] s ∧
      s.sentries = ⟨job, none⟩ ::ₘ 0 ∧ job.timeout = .ofSecs 1 ∧ s.now = 0 ∧
      s.collector.shutdown = false :=
    ⟨_, _, h₁.handedOver hprompt { sampleTarget with timeout := .ofSecs 1 } 7 rfl,
      rfl, rfl, rfl, rfl⟩
  -- the watchdog wakes and looks once
  have hbegin : Watch.begin? hastyRoutine job.timeout s.now = some ⟨0, 10 ^ 9, 0⟩ := by
    rw [hout, hnow]; rfl
  have h₃ := h₂.step (.awake hsen hbegin) (hprompt _ _ (by simp))
  have hd₃ := distinct_of_few h₃ (by simp [jobs_cons, Act.drawn?])
  have hwatched := watched_of_sentry h₃
    (Multiset.mem_cons_self (⟨job, some ⟨0, 10 ^ 9, 0⟩⟩ : Sentry) 0)
  have hpend : s.collector.pending job.id = true :=
    (pending_iff h₃ hd₃ hwatched).2 (by simp [Settled])
  have hagain : Watch.glance ⟨0, 10 ^ 9, 0⟩ hastyRoutine s.collector job.id s.now =
      .again (10 ^ 9) := by
    rw [Watch.glance, hshut, hpend, hnow]; rfl
  have h₄ := h₃.step (@Step.watch _ _ job ⟨0, 10 ^ 9, 0⟩ _ 0 rfl hagain) (hprompt _ _ (by simp))
  -- it sleeps to the deadline and looks again
  have hsleep : Watch.glance ⟨0, 10 ^ 9, 10 ^ 9⟩ hastyRoutine s.collector job.id s.now =
      .sleep := by
    rw [Watch.glance, hshut, hnow]; rfl
  have h₅ := h₄.step (e := .elapse (10 ^ 9)) (.elapse (hnow ▸ Nat.zero_le _)) (by
    rintro t ⟨⟩ x hx
    obtain rfl := Multiset.mem_singleton.1 hx
    exact ⟨_, rfl, hsleep, by decide⟩)
  have hclose : Watch.glance ⟨0, 10 ^ 9, 10 ^ 9⟩ hastyRoutine s.collector job.id (10 ^ 9) =
      .close .timedOut := by
    rw [Watch.glance, hshut, hpend]; rfl
  have h₆ := h₅.step (@Step.close _ _ job ⟨0, 10 ^ 9, 10 ^ 9⟩ _ 0 rfl hclose)
    (hprompt _ _ (by simp))
  have hd₆ := distinct_of_few h₆ (by simp [jobs_cons, Act.drawn?])
  have hontime : OnTime hastyRoutine job 0 := by
    have hdl : deadline hastyRoutine job 0 = 10 ^ 9 := by rw [deadline, hout]; rfl
    refine .of_grain (by decide) (by decide) (by decide) ?_ ?_ <;> rw [hdl] <;> decide
  have hverdict := (watchdog_verdict h₆ hd₆ (b := 0) (by simp [hnow]) hontime).2.1 [] _ _ _ rfl
  obtain ⟨-, hlt, -, ⟨hv, -⟩ | ⟨-, hset, hle⟩⟩ := hverdict.2 (by simp)
  · cases hv
  · exact ⟨_, _, job, h₆, hset, hle, hlt⟩

end DiskWatch.Engine
