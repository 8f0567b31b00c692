/-
DiskWatch/Proofs/Overrun.lean

The slowest measurement, which outlasts its watchdog.  A job is taken out at the
instant at which it was put in.  Every call fails when its limit is reached, so the
tool is called as often as the policy allows, and every pause is waited out.
Meanwhile the watchdog looks once a period.  If all this takes as long as the
watchdog is patient, then one of its looks is at the deadline and finds the job
under way.

What stays true meanwhile is `Guarded`.  From one exchange of the worker to the next
either the watchdog gives up or the clock gets there (`Guarded.pass`); the rest is an
induction on the attempts that are left (`overruns_of_tries`).  The job was not stuck:
a worker that measures may always get to the end (`measures`), so this one may be done
with its job after that (`Punctual.finishes`).
-/
import DiskWatch.Proofs.Admission
import DiskWatch.Proofs.Pace

namespace DiskWatch.Engine

variable {r : Routine} {n : Nat} {past later : List Act} {s s' : Engine} {e : Act}
  {c : Category} {job : Job} {t due : Instant}

/-! ### The first job -/

/-- The acts by which the first job of a run gets to its worker, the latest first. -/
def opening (t : Target) (job : Job) : List Act :=
  [.take job.category job, .ready job.category, .awake job 0, .dispatch job, .enqueue job none,
    .reserve job .admitted, .draw job, .register t]

/-- The job is taken out at the instant at which it is put in. -/
theorem happened_opening (t : Target) (job : Job) :
    Happened (opening t job) (.enqueue job none) 0 ∧
      Happened (opening t job) (.take job.category job) 0 :=
  ⟨⟨[_, _, _, _], _, rfl, rfl⟩, ⟨[], _, rfl, rfl⟩⟩

/-- The first job of a target may be taken out at the instant at which it is put in. -/
theorem exists_opening (r : Routine) (t : Target) {w : Watch}
    (hw : Watch.begin? r t.timeout 0 = some w) : ∃ job s,
    job = .ofTarget t job.id job.cycle job.stop ∧
    RunUnder (fun _ e => ∀ t, e ≠ .elapse t) r 1 (opening t job) s ∧
    s.worker job.category = .holding job ∧ s.sentries = ⟨job, some w⟩ ::ₘ 0 ∧ s.now = 0 := by
  have h₀ : RunUnder (fun _ e => ∀ t, e ≠ .elapse t) r 1 [] (start ⟨1, [], true, 1⟩) := .start rfl
  have h₁ := h₀.step (.register _ t) (by simp)
  have hitem : (((Collector.start (.both ⟨1, [], true, 1⟩)).register t).ledgers.get
      t.category).item? t.name = some (.new t.category t.name) := by
    show (((PerCategory.both Ledger.empty).update t.category _).get t.category).item? _ = _
    rw [PerCategory.get_update, PerCategory.get_both]
    simp [Ledger.register, Ledger.item?, Ledger.empty, Item.new]
  have hempty : ((Collector.start (.both ⟨1, [], true, 1⟩)).register t).queues.get t.category =
      ⟨1, [], true, 1⟩ := PerCategory.get_both _ _
  obtain ⟨o, htick⟩ := Collector.tick_of_accepted 0 hitem rfl (by rw [hempty])
    (by rw [hempty]; exact Nat.one_pos)
  obtain ⟨job, s, hjob, h₂, hsen, hnow, hshut, hfree, hqueue⟩ : ∃ job s,
      job = .ofTarget t job.id job.cycle job.stop ∧
      RunUnder (fun _ e => ∀ t, e ≠ .elapse t) r 1
        [.dispatch job, .enqueue job none, .reserve job .admitted, .draw job, .register t] s ∧
      s.sentries = ⟨job, none⟩ ::ₘ 0 ∧ s.now = 0 ∧ s.collector.shutdown = false ∧
      s.workers.get job.category = .free ∧
      s.collector.queues.get job.category = ⟨1, [job], true, 1⟩ := by
    refine ⟨_, _, rfl, h₁.handedOver (fun _ _ he => he) t 0 htick, rfl, rfl, rfl,
      PerCategory.get_both _ _, ?_⟩
    show (PerCategory.update _ t.category _).get t.category = _
    rw [PerCategory.get_update, hempty]
    rfl
  -- the watchdog begins, and the worker turns to its queue
  have hbegin : Watch.begin? r job.timeout s.now = some w := by
    rw [hnow, hjob]
    exact hw
  have h₃ := h₂.step (.awake hsen hbegin) (by simp)
  have h₄ := h₃.step (.ready hfree hshut) (by simp)
  have htake : (s.collector.takeJob job.category).1 = .job job := by
    simp [Collector.takeJob, hqueue, Queue.take]
  have h₅ := h₄.step (.take (PerCategory.get_set _ _ _) (Prod.ext htake rfl)) (by simp)
  rw [hnow] at h₅
  exact ⟨job, _, hjob, h₅, PerCategory.get_set _ _ _, rfl, rfl⟩

/-! ### A watchdog that waits -/

/-- The clock shows the first instant at which a watchdog could be too late, and its
timers reach it. -/
def Shown (r : Routine) (job : Job) (b : Instant) : Prop :=
  deadline r job b + r.poll.nanos ≤ r.clock.lastAlarm ∧
    deadline r job b + r.poll.nanos < r.clock.limit

/-- A watchdog that begins at the first instant looks at its very deadline. -/
structure Regular (r : Routine) (job : Job) : Prop where
  grain_pos : 0 < r.clock.grain
  poll_pos : 0 < r.poll.nanos
  grain_dvd : r.clock.grain ∣ r.poll.nanos
  poll_dvd : r.poll.nanos ∣ deadline r job 0
  shown : Shown r job 0
  near : deadline r job 0 ≤ Clock.farAway

/-- A punctual run with one job, which its watchdog, begun at the first instant, has
found under way so far, and at whose deadline it is going to look. -/
structure Guarded (r : Routine) (job : Job) (n : Nat) (past : List Act) (s : Engine)
    (due : Instant) : Prop where
  run : Punctual r job n past s
  drawn : jobs Act.drawn? past = [job]
  sentries : s.sentries = ⟨job, some ⟨0, deadline r job 0, due⟩⟩ ::ₘ 0
  unsettled : ¬Settled past job
  calm : ∀ t, .shutdown t ∉ past
  now_le : s.now ≤ due
  beats : ∃ k, due + k * r.poll.nanos = deadline r job 0

namespace Guarded

theorem due_le (h : Guarded r job n past s due) : due ≤ deadline r job 0 := by
  obtain ⟨k, hk⟩ := h.beats
  exact hk ▸ Nat.le_add_right ..

theorem alarm_due (h : Guarded r job n past s due) (hr : Regular r job) :
    r.clock.alarm due = due := by
  have hle : due ≤ r.clock.lastAlarm :=
    Nat.le_trans h.due_le (Nat.le_trans (Nat.le_add_right ..) hr.shown.1)
  obtain ⟨k, hk⟩ := h.beats
  have hdvd : r.poll.nanos ∣ due :=
    (Nat.dvd_add_left (Nat.dvd_mul_left ..)).1 (hk ▸ hr.poll_dvd)
  exact Clock.alarm_of_dvd hr.grain_pos (Nat.dvd_trans hr.grain_dvd hdvd) hle

theorem pending (h : Guarded r job n past s due) : s.collector.pending job.id = true := by
  have hx : (⟨job, some ⟨0, deadline r job 0, due⟩⟩ : Sentry) ∈ s.sentries :=
    h.sentries ▸ Multiset.mem_cons_self _ _
  exact (pending_iff h.run.run (.of_drawn h.drawn) (watched_of_sentry h.run.run hx)).2 h.unsettled

theorem running (h : Guarded r job n past s due) : s.collector.shutdown = false :=
  shutdown_eq_false h.run.run h.calm

/-- Nothing but another job, a settlement or a shutdown would disturb the watchdog. -/
theorem step (h : Guarded r job n past s due) (hrun : Punctual r job n (e :: past) s')
    (hnone : e.drawn? = none) (hset : ∀ d, e ≠ .settle d job) (hcalm : ∀ t, e ≠ .shutdown t)
    {due' : Instant} (hsen : s'.sentries = ⟨job, some ⟨0, deadline r job 0, due'⟩⟩ ::ₘ 0)
    (hnow : s'.now ≤ due') (hbeats : ∃ k, due' + k * r.poll.nanos = deadline r job 0) :
    Guarded r job n (e :: past) s' due' := by
  refine ⟨hrun, ?_, hsen, ?_, ?_, hnow, hbeats⟩
  · rw [jobs_cons, hnone, h.drawn]
    rfl
  · rintro ⟨d, hmem⟩
    exact h.unsettled ⟨d, List.mem_of_ne_of_mem (hset d).symm hmem⟩
  · intro t ht
    exact h.calm t (List.mem_of_ne_of_mem (hcalm t).symm ht)

/-- A step of the worker that settles nothing changes nothing for the watchdog. -/
theorem act (h : Guarded r job n past s due) (hs : Step r s e s') (he : e.worker? = some c)
    (hset : ∀ d, e ≠ .settle d job) : Guarded r job n (e :: past) s' due := by
  have hstill : ∀ t, e ≠ .elapse t := by
    rintro t rfl
    cases he
  have hnone : e.drawn? = none := by
    cases e with
    | draw job => cases he
    | _ => rfl
  have hcalm : ∀ t, e ≠ .shutdown t := by
    rintro t rfl
    cases he
  have hsen : s'.sentries = s.sentries := by
    cases hs with
    | dispatch | awake | faint | watch | falter | close => cases he
    | _ => rfl
  apply h.step (h.run.still hs hstill) hnone hset hcalm (hsen.trans h.sentries) _ h.beats
  rw [hs.now_eq hstill]
  exact h.now_le

/-- Time passes up to the next look. -/
theorem elapse (h : Guarded r job n past s due) (hr : Regular r job) (hnow : s.now ≤ t)
    (hbefore : s.now < due) (ht : t ≤ due)
    (hlatest : t ≤ (s.worker job.category).latest r.clock (lastMove job.category past)) :
    Guarded r job n (.elapse t :: past) { s with now := t } due := by
  have hsleep : Watch.glance ⟨0, deadline r job 0, due⟩ r s.collector job.id s.now = .sleep := by
    simp [Watch.glance, h.running, h.alarm_due hr, Nat.not_le_of_lt hbefore]
  have hprompt : Prompt r s (.elapse t) := by
    rintro u ⟨⟩ x hx
    rw [h.sentries] at hx
    obtain rfl := Multiset.mem_singleton.1 hx
    exact ⟨_, rfl, hsleep, (h.alarm_due hr).symm ▸ ht⟩
  have htimely : Timely r job past s (.elapse t) := by
    rintro u ⟨⟩ d hd
    obtain rfl := category_of_mem_jobs h.run.run hd
    exact hlatest
  exact h.step (h.run.step (.elapse hnow) hprompt htimely) rfl (by simp) (by simp) h.sentries ht
    h.beats

/-- The watchdog looks, and goes on. -/
theorem look (h : Guarded r job n past s due) (hr : Regular r job) (hnow : s.now = due)
    (hbefore : due < deadline r job 0) : ∃ s', Guarded r job n (.watch job s.now :: past) s'
      (due + r.poll.nanos) ∧ s'.now = s.now ∧ s'.workers = s.workers := by
  have hshown : due + r.poll.nanos < r.clock.limit :=
    Nat.lt_of_le_of_lt (Nat.add_le_add_right h.due_le _) hr.shown.2
  have hnext : r.clock.nextBeat? .delay due due r.poll = some (due + r.poll.nanos) := by
    rw [Clock.nextBeat?_of_le (Nat.le_add_right ..), Clock.later?, if_pos hshown]
    rfl
  have hagain : Watch.glance ⟨0, deadline r job 0, due⟩ r s.collector job.id s.now =
      .again (due + r.poll.nanos) := by
    simp [Watch.glance, h.running, h.pending, h.alarm_due hr, hnow, hnext,
      Nat.not_le_of_lt hbefore]
  have hbeats : ∃ k, due + r.poll.nanos + k * r.poll.nanos = deadline r job 0 := by
    obtain ⟨k, hk⟩ := h.beats
    cases k with
    | zero =>
      rw [Nat.zero_mul, Nat.add_zero] at hk
      exact absurd hbefore (hk ▸ Nat.lt_irrefl _)
    | succ k =>
      rw [Nat.succ_mul, Nat.add_comm (k * _), ← Nat.add_assoc] at hk
      exact ⟨k, hk⟩
  have hrun := h.run.still (.watch h.sentries hagain) (by simp)
  exact ⟨_, h.step hrun rfl (by simp) (by simp) rfl (Nat.le_trans h.now_le (Nat.le_add_right ..))
    hbeats, rfl, rfl⟩

/-- While the worker waits long enough, the clock gets to any instant up to the next look. -/
theorem wait (h : Guarded r job n past s due) (hr : Regular r job) (hnow : s.now ≤ t)
    (ht : t ≤ due)
    (hlatest : t ≤ (s.worker job.category).latest r.clock (lastMove job.category past)) :
    ∃ later s', Guarded r job n (later ++ past) s' due ∧ s'.now = t ∧ s'.workers = s.workers ∧
      lastMove job.category (later ++ past) = lastMove job.category past := by
  rcases Nat.lt_or_ge s.now due with hlt | hge
  · exact ⟨[.elapse t], _, h.elapse hr hnow hlt ht hlatest, rfl, rfl, lastMove_of_away nofun⟩
  · exact ⟨[], s, h, Nat.le_antisymm hnow (Nat.le_trans ht hge), rfl, rfl⟩

/-- While the worker waits long enough, the clock gets to any instant up to the deadline. -/
theorem reach (hr : Regular r job) (k : Nat) (h : Guarded r job n past s due)
    (hk : due + k * r.poll.nanos = deadline r job 0) (hnow : s.now ≤ t)
    (ht : t ≤ deadline r job 0)
    (hlatest : t ≤ (s.worker job.category).latest r.clock (lastMove job.category past)) :
    ∃ later s' due', Guarded r job n (later ++ past) s' due' ∧ s'.now = t ∧
      s'.workers = s.workers := by
  induction k generalizing past s due with
  | zero =>
    rw [Nat.zero_mul, Nat.add_zero] at hk
    obtain ⟨later, s', h', hnow', hw', -⟩ := h.wait hr hnow (hk ▸ ht) hlatest
    exact ⟨later, s', due, h', hnow', hw'⟩
  | succ k ih =>
    rcases Nat.lt_or_ge due t with hgt | hle
    · -- one look comes in between, at `due`
      have hdue := Nat.le_trans (Nat.le_of_lt hgt) hlatest
      obtain ⟨later₁, s₁, h₁, hnow₁, hw₁, hlast₁⟩ :=
        h.wait hr h.now_le (Nat.le_refl due) hdue
      obtain ⟨s₂, h₂, hnow₂, hw₂⟩ := h₁.look hr hnow₁ (Nat.lt_of_lt_of_le hgt ht)
      have haway : (Act.watch job s₁.now).worker? ≠ some job.category := nofun
      rw [Nat.succ_mul, Nat.add_comm (k * _), ← Nat.add_assoc] at hk
      obtain ⟨later, s', due', h', hnow', hw'⟩ := ih h₂ hk
        (by rw [hnow₂, hnow₁]; exact Nat.le_of_lt hgt)
        (by rw [lastMove_of_away haway, hlast₁, worker, hw₂, hw₁]; exact hlatest)
      refine ⟨later ++ .watch job s₁.now :: later₁, s', due', ?_, hnow', ?_⟩
      · rw [List.append_assoc]
        exact h'
      · rw [hw', hw₂, hw₁]
    · obtain ⟨later, s', h', hnow', hw', -⟩ := h.wait hr hnow hle hlatest
      exact ⟨later, s', due, h', hnow', hw'⟩

end Guarded

/-- The run can go on to a point at which the watchdog gives up, at its deadline, while
the worker measures. -/
def Overruns (r : Routine) (job : Job) (n : Nat) (past : List Act) : Prop :=
  ∃ later s, Punctual r job n (.close job .timedOut (deadline r job 0) :: (later ++ past)) s ∧
    (∀ t, .shutdown t ∉ later ++ past) ∧
    ∃ span x, s.worker job.category = .measuring job span x

theorem Overruns.of_append (later : List Act) (h : Overruns r job n (later ++ past)) :
    Overruns r job n past := by
  obtain ⟨more, s, hrun, hcalm, hw⟩ := h
  rw [← List.append_assoc] at hrun hcalm
  exact ⟨more ++ later, s, hrun, hcalm, hw⟩

namespace Guarded

variable {span : Nat} {x y : Activity (Except Error Measurement)}

/-- At the deadline the watchdog gives up. -/
theorem overruns (h : Guarded r job n past s due) (hr : Regular r job)
    (hw : s.worker job.category = .measuring job span x)
    (hnow : s.now = deadline r job 0) : Overruns r job n past := by
  obtain rfl : due = deadline r job 0 := Nat.le_antisymm h.due_le (hnow ▸ h.now_le)
  have hclose : Watch.glance ⟨0, deadline r job 0, deadline r job 0⟩ r s.collector job.id s.now =
      .close .timedOut := by
    simp [Watch.glance, h.running, h.pending, h.alarm_due hr, hnow,
      Clock.nextBeat?_of_le (Nat.le_add_right (deadline r job 0) _)]
  have hrun := h.run.still (.close h.sentries hclose) (by simp)
  rw [hnow] at hrun
  exact ⟨[], _, hrun, h.calm, span, x, hw⟩

/-- While the worker waits, the watchdog gives up or the clock gets there. -/
theorem pass (h : Guarded r job n past s due) (hr : Regular r job)
    (hw : s.worker job.category = .measuring job span x)
    (hlast : lastMove job.category past = s.now) (hnow : s.now ≤ t)
    (hlatest : min t (deadline r job 0) ≤ x.latest r.clock s.now) :
    Overruns r job n past ∨ t < deadline r job 0 ∧ ∃ later s' due',
      Guarded r job n (later ++ past) s' due' ∧ s'.now = t ∧ s'.workers = s.workers := by
  obtain ⟨k, hk⟩ := h.beats
  have hwait : (s.worker job.category).latest r.clock (lastMove job.category past) =
      x.latest r.clock s.now := by
    rw [hw, hlast]
    rfl
  rw [← hwait] at hlatest
  rcases Nat.lt_or_ge t (deadline r job 0) with hlt | hge
  · rw [Nat.min_eq_left (Nat.le_of_lt hlt)] at hlatest
    exact .inr ⟨hlt, h.reach hr k hk hnow (Nat.le_of_lt hlt) hlatest⟩
  · rw [Nat.min_eq_right hge] at hlatest
    have hbefore : s.now ≤ deadline r job 0 := Nat.le_trans h.now_le h.due_le
    obtain ⟨later, s', due', h', hnow', hw'⟩ := h.reach hr k hk hbefore (Nat.le_refl _) hlatest
    rw [worker, ← hw'] at hw
    exact .inl (.of_append later (h'.overruns hr hw hnow'))

end Guarded

/-! ### Exchange by exchange -/

namespace Guarded

variable {span : Nat} {x y : Activity (Except Error Measurement)}

theorem lastMove_act (h : Guarded r job n past s due) (he : e.worker? = some c) :
    lastMove c (e :: past) = s.now := by
  rw [lastMove_of_worker he, clockAt_eq h.run.run]

/-- While the worker waits in an exchange, the watchdog gives up or the exchange is over. -/
theorem exchange (h : Guarded r job n past s due) (hr : Regular r job)
    (hw : s.worker job.category = .measuring job span x)
    (hlast : lastMove job.category past = s.now) (hnow : s.now ≤ t)
    (hlatest : min t (deadline r job 0) ≤ x.latest r.clock s.now)
    (he : e.worker? = some job.category) (hset : ∀ d, e ≠ .settle d job)
    (hs : ∀ s₁ : Engine, s₁.worker job.category = .measuring job span x →
      ∃ s₂, Step r s₁ e s₂ ∧ s₂.now = s₁.now ∧ s₂.worker job.category = .measuring job span y) :
    Overruns r job n past ∨ t < deadline r job 0 ∧ ∃ later s' due',
      Guarded r job n (later ++ past) s' due' ∧ s'.now = t ∧
      s'.worker job.category = .measuring job span y ∧
      lastMove job.category (later ++ past) = s'.now := by
  rcases h.pass hr hw hlast hnow hlatest with hover | ⟨hlt, later, s₁, due₁, h₁, hnow₁, hw₁⟩
  · exact .inl hover
  · obtain ⟨s₂, hstep, hnow₂, hw₂⟩ := hs s₁ (by rw [worker, hw₁]; exact hw)
    have hmoved := h₁.lastMove_act he
    exact .inr ⟨hlt, e :: later, s₂, due₁, h₁.act hstep he hset, hnow₂.trans hnow₁, hw₂,
      hmoved.trans hnow₂.symm⟩

/-- A call is answered when its limit is reached. -/
theorem call (h : Guarded r job n past s due) (hr : Regular r job) {k : Call}
    {next : Except Error String → Activity (Except Error Measurement)}
    (hw : s.worker job.category = .measuring job span (.call k next))
    (hlast : lastMove job.category past = s.now) (answer : Except Error String) :
    Overruns r job n past ∨ s.now + k.limit.nanos < deadline r job 0 ∧ ∃ later s' due',
      Guarded r job n (later ++ past) s' due' ∧ s'.now = s.now + k.limit.nanos ∧
      s'.worker job.category = .measuring job span (next answer) ∧
      lastMove job.category (later ++ past) = s'.now := by
  apply h.exchange hr hw hlast (Nat.le_add_right ..) (Nat.min_le_left ..)
    (e := .call job.category k) rfl (by simp)
  intro s₁ hw₁
  exact ⟨_, .call hw₁ answer, rfl, PerCategory.get_set _ _ _⟩

/-- A pause is waited out. -/
theorem pause (h : Guarded r job n past s due) (hr : Regular r job) {d : Duration}
    {next : Bool → Activity (Except Error Measurement)}
    (hw : s.worker job.category = .measuring job span (.pause d next))
    (hlast : lastMove job.category past = s.now) :
    Overruns r job n past ∨ s.now + d.nanos < deadline r job 0 ∧ ∃ later s' due',
      Guarded r job n (later ++ past) s' due' ∧ s'.now = s.now + d.nanos ∧
      s'.worker job.category = .measuring job span (next false) ∧
      lastMove job.category (later ++ past) = s'.now := by
  have hlatest : min (s.now + d.nanos) (deadline r job 0) ≤ r.clock.wake s.now d := by
    have hle : deadline r job 0 ≤ r.clock.lastAlarm :=
      Nat.le_trans (Nat.le_add_right ..) hr.shown.1
    have hfar : deadline r job 0 ≤ s.now + Clock.farAway :=
      Nat.le_trans hr.near (Nat.le_add_left ..)
    exact Clock.le_wake_of_le hr.grain_pos (Nat.min_le_left ..)
      (Nat.le_trans (Nat.min_le_right ..) hle) (Nat.le_trans (Nat.min_le_right ..) hfar)
  apply h.exchange hr hw hlast (Nat.le_add_right ..) hlatest (e := .pause job.category) rfl
    (by simp)
  intro s₁ hw₁
  have hcut : false = true → job.stop.given s₁.collector.shutdown = true := by simp
  exact ⟨_, .pause hw₁ hcut, rfl, PerCategory.get_set _ _ _⟩

end Guarded

/-- An answer after which a call is tried again. -/
def refusal (k : Call) : Error := .failed k.program 1 ""

/-- A refused attempt is noted, and the next one follows after a pause. -/
theorem tryFrom_refused (policy : RetryPolicy) (name : String) (k : Call) (spare attempt : Nat)
    (f : Except Error String → Activity (Except Error Measurement)) : ∃ next o rest,
    (Activity.tryFrom policy name (fun _ => .call k .done) (spare + 1) attempt).bind f =
      .call k next ∧
    next (.error (refusal k)) = .note o (.pause (policy.delayAfter attempt) rest) ∧
    rest false =
      (Activity.tryFrom policy name (fun _ => .call k .done) spare (attempt + 1)).bind f := by
  rw [Activity.tryFrom]
  exact ⟨_, _, _, rfl, rfl, rfl⟩

/-- A worker that begins an attempt, when the attempts that are left and the pauses
between them take it up to the deadline. -/
theorem overruns_of_tries (hr : Regular r job) {name : String} {k : Call} {span : Nat}
    {f : Except Error String → Activity (Except Error Measurement)} (spare attempt : Nat)
    (h : Guarded r job n past s due)
    (hw : s.worker job.category = .measuring job span ((Activity.tryFrom r.policy name
      (fun _ => .call k .done) spare attempt).bind f))
    (hlast : lastMove job.category past = s.now)
    (hlong : deadline r job 0 ≤
      s.now + ((spare + 1) * k.limit.nanos + r.policy.pausesFrom attempt spare)) :
    Overruns r job n past := by
  induction spare generalizing attempt past s due with
  | zero =>
    rw [Activity.tryFrom] at hw
    rcases h.call hr hw hlast (.error (refusal k)) with hover | ⟨hlt, -⟩
    · exact hover
    · rw [Nat.zero_add, Nat.one_mul] at hlong
      exact absurd hlt (Nat.not_lt_of_le hlong)
  | succ spare ih =>
    obtain ⟨next, o, rest, hcall, hrefused, hrest⟩ :=
      tryFrom_refused r.policy name k spare attempt f
    rw [hcall] at hw
    rcases h.call hr hw hlast (.error (refusal k)) with
      hover | ⟨-, later₁, s₁, due₁, h₁, hnow₁, hw₁, -⟩
    · exact hover
    apply Overruns.of_append later₁
    rw [hrefused] at hw₁
    have h₂ := h₁.act (.note hw₁) rfl (by simp)
    apply Overruns.of_append [.note job.category o]
    rcases h₂.pause hr (PerCategory.get_set _ _ _) (h₁.lastMove_act rfl) with
      hover | ⟨-, later₃, s₃, due₃, h₃, hnow₃, hw₃, hlast₃⟩
    · exact hover
    apply Overruns.of_append later₃
    rw [hrest] at hw₃
    apply ih (attempt + 1) h₃ hw₃ hlast₃
    have hnow : s₃.now = s.now + k.limit.nanos + (r.policy.delayAfter attempt).nanos := by
      rw [hnow₃]
      exact congrArg (· + _) hnow₁
    have hsum : s.now + ((spare + 1 + 1) * k.limit.nanos +
        r.policy.pausesFrom attempt (spare + 1)) =
        s₃.now + ((spare + 1) * k.limit.nanos + r.policy.pausesFrom (attempt + 1) spare) := by
      rw [hnow, RetryPolicy.pausesFrom_succ, Nat.succ_mul (spare + 1)]
      ac_rfl
    exact hsum ▸ hlong

theorem begin?_of_regular (hr : Regular r job) :
    Watch.begin? r job.timeout 0 = some ⟨0, deadline r job 0, 0⟩ := by
  have hlimit : 0 + job.timeout.nanos + r.grace.nanos < r.clock.limit :=
    Nat.lt_of_le_of_lt (Nat.le_add_right ..) hr.shown.2
  have htimeout : 0 + job.timeout.nanos < r.clock.limit :=
    Nat.lt_of_le_of_lt (Nat.le_add_right ..) hlimit
  have hpoll : r.poll.nanos ≠ 0 := Nat.pos_iff_ne_zero.1 hr.poll_pos
  rw [Watch.begin?, Clock.later?, if_pos htimeout]
  show ((r.clock.later? _ r.grace).bind _) = _
  rw [Clock.later?, if_pos hlimit]
  exact if_neg hpoll

/-- A worker that has begun the first job of a run, at the instant at which the job
was put in. -/
theorem Guarded.ofOpening {target : Target} {path : Path} (hr : Regular r job)
    (h : RunUnder (fun _ e => ∀ t, e ≠ .elapse t) r 1
      (.look job.category path :: .begin job.category job :: opening target job) s)
    (hsen : s.sentries = ⟨job, some ⟨0, deadline r job 0, 0⟩⟩ ::ₘ 0) (hnow : s.now = 0) :
    Guarded r job 1 (.look job.category path :: .begin job.category job :: opening target job)
      s 0 := by
  refine ⟨.of_still h, rfl, hsen, ?_, ?_, Nat.le_of_eq hnow, ?_⟩
  · rintro ⟨c, hmem⟩
    simp [opening] at hmem
  · simp [opening]
  · obtain ⟨k, hk⟩ := hr.poll_dvd
    exact ⟨k, by rw [hk, Nat.zero_add, Nat.mul_comm]⟩

/-- The first job of a run, at the instant at which it was put in.  Its worker has just
begun to measure, and its watchdog waits. -/
theorem exists_guarded (t : Target) (hr : ∀ job : Job, job.timeout = t.timeout → Regular r job)
    (hg : Guard.textFault? t.kind.path = none) : ∃ job past s span read,
      job = .ofTarget t job.id job.cycle job.stop ∧ Guarded r job 1 past s 0 ∧ s.now = 0 ∧
      s.worker job.category = .measuring job span ((Activity.retrying r.policy
        (Measurement.callOf t.kind t.timeout).program fun _ =>
          .call (Measurement.callOf t.kind t.timeout) .done).bind read) ∧
      lastMove job.category past = s.now ∧ .awake job 0 ∈ past ∧
      Happened past (.enqueue job none) 0 ∧ Happened past (.take job.category job) 0 := by
  have hbegin := begin?_of_regular (hr (.ofTarget t ⟨""⟩ none .shutdown) rfl)
  obtain ⟨job, s, hjob, hrun, hw, hsen, hnow⟩ := exists_opening r t hbegin
  have htimeout : job.timeout = t.timeout := by rw [hjob]; rfl
  have hkind : job.kind = t.kind := by rw [hjob]; rfl
  obtain ⟨k, span, read, hbegun⟩ := hrun.begun (fun _ _ he => he) 0 hw (hkind ▸ hg)
  have hguarded := Guarded.ofOpening (hr job htimeout) hbegun
    (hsen.trans (by rw [deadline, deadline, htimeout]; rfl)) hnow
  obtain ⟨henqueue, htake⟩ := happened_opening t job
  refine ⟨job, _, _, span, read, hjob, hguarded, hnow, ?_, ?_, by simp [opening],
    henqueue.append [_, _], htake.append [_, _]⟩
  · rw [← hkind, ← htimeout]
    exact PerCategory.get_set _ _ _
  · show _ = s.now
    rw [hnow]
    exact lastMove_of_worker rfl

/-! ### The end of a measurement -/

/-- By moves of its worker alone the run can go on to a point at which the job is
measured, with this true of it. -/
def Measures (P : List Act → Engine → Prop) (c : Category) (job : Job) (past : List Act) : Prop :=
  ∃ later s span result, P (later ++ past) s ∧ s.worker c = .measuring job span (.done result) ∧
    ∀ e ∈ later, e.worker? = some c

section Measures

variable {P : List Act → Engine → Prop} {span : Nat} {x : Activity (Except Error Measurement)}

theorem Measures.of_cons (h : Measures P c job (e :: past)) (he : e.worker? = some c) :
    Measures P c job past := by
  obtain ⟨later, s, span, result, hp, hw, hby⟩ := h
  rw [← List.singleton_append, ← List.append_assoc] at hp
  refine ⟨later ++ [e], s, span, result, hp, hw, fun a ha => ?_⟩
  rcases List.mem_append.1 ha with ha | ha
  · exact hby a ha
  · exact List.mem_singleton.1 ha ▸ he

/-- A worker that measures may get to the end, whatever is left to do, and what its moves
keep is true there. -/
theorem measures (hkeep : ∀ {past : List Act} {s : Engine} {e : Act} {s' : Engine},
      P past s → Step r s e s' → e.worker? = some c → (∀ d, e ≠ .settle d job) → P (e :: past) s')
    (h : P past s) (hw : s.worker c = .measuring job span x) : Measures P c job past := by
  induction x generalizing past s with
  | done result => exact ⟨[], s, span, result, h, hw, by simp⟩
  | look path next ih =>
    have hlook := hkeep h (.look hw .present) rfl (by simp)
    exact (ih .present hlook (PerCategory.get_set _ _ _)).of_cons rfl
  | call k next ih =>
    have hcall := hkeep h (.call hw (.error (refusal k))) rfl (by simp)
    exact (ih _ hcall (PerCategory.get_set _ _ _)).of_cons rfl
  | pause length next ih =>
    have hcut : false = true → job.stop.given s.collector.shutdown = true := by simp
    have hpause := hkeep h (.pause hw hcut) rfl (by simp)
    exact (ih false hpause (PerCategory.get_set _ _ _)).of_cons rfl
  | note o next ih =>
    have hnote := hkeep h (.note hw) rfl (by simp)
    exact (ih hnote (PerCategory.get_set _ _ _)).of_cons rfl

end Measures

/-- The run can go on to a point at which the job is settled. -/
def Finishes (r : Routine) (c : Category) (job : Job) (n : Nat) (past : List Act) : Prop :=
  ∃ later s, Punctual r job n (later ++ past) s ∧ .settle c job ∈ later ∧
    ∀ t, .shutdown t ∉ later

/-- A worker that measures may be done with its job, whatever is left to do. -/
theorem Punctual.finishes {span : Nat} {x : Activity (Except Error Measurement)}
    (h : Punctual r job n past s) (hw : s.worker c = .measuring job span x) :
    Finishes r c job n past := by
  obtain ⟨later, s', span, result, hrun, hdone, hby⟩ := measures (P := Punctual r job n)
    (fun h hs he _ => h.still hs (by rintro t rfl; cases he)) h hw
  have hset := hrun.still (@Step.settle _ _ _ _ _ _ s'.now (.ofSecs 0) hdone) (by simp)
  refine ⟨.settle c job :: later, _, hset, List.mem_cons_self, fun t ht => ?_⟩
  cases hby _ ((List.mem_cons.1 ht).resolve_left nofun)

/-- Where a measurement may take as long as its watchdog is patient, there is a
punctual run in which the watchdog gives up, although the job was taken out at the
instant at which it was put in and is settled in the end. -/
theorem exists_overrun (t : Target) (hr : ∀ job : Job, job.timeout = t.timeout → Regular r job)
    (hg : Guard.textFault? t.kind.path = none)
    (hlong : t.timeout.nanos + r.grace.nanos ≤ Measurement.longest r.policy t.kind t.timeout) :
    ∃ job past s, job = .ofTarget t job.id job.cycle job.stop ∧ Punctual r job 1 past s ∧
      Happened past (.enqueue job none) 0 ∧ Happened past (.take job.category job) 0 ∧
      (∀ t, .shutdown t ∉ past) ∧ .close job .timedOut (deadline r job 0) ∈ past ∧
      Settled past job := by
  obtain ⟨job, past, s, span, read, hjob, hguarded, hnow, hw, hlast, -, henqueue, htake⟩ :=
    exists_guarded t hr hg
  have htimeout : job.timeout = t.timeout := by rw [hjob]; rfl
  have hover : Overruns r job 1 past := by
    apply overruns_of_tries (hr job htimeout) (r.policy.attempts - 1) 1 hguarded hw hlast
    rw [hnow, Nat.sub_add_cancel r.policy.attempts_pos, deadline, htimeout, Nat.zero_add,
      Nat.zero_add]
    exact hlong
  obtain ⟨later, s₁, hclosed, hcalm, span, x, hmeasuring⟩ := hover
  obtain ⟨more, s', hdone, hset, hcalm'⟩ := hclosed.finishes hmeasuring
  refine ⟨job, _, s', hjob, hdone, ?_, ?_, ?_, ?_, job.category, List.mem_append_left _ hset⟩
  · exact ((henqueue.append later).append [_]).append more
  · exact ((htake.append later).append [_]).append more
  · intro t ht
    rcases List.mem_append.1 ht with ht | ht
    · exact hcalm' t ht
    · exact hcalm t (List.mem_of_ne_of_mem (by simp) ht)
  · exact List.mem_append_right _ List.mem_cons_self

end DiskWatch.Engine
