/-
DiskWatch/Proofs/Pace.lean

How long a worker is at a job.  A measurement is a tree, and a bound on the time
that it takes goes along its branches: each call takes its limit at most and each
pause its length (`Activity.Within`).  As often as a policy tries, that makes so
many limits and the pauses between them (`within_take`).

In a run the time is told by the history (`clockAt`, `lastMove`).  A run is
punctual for a job if nobody sleeps past a timer and, while a worker is at the
job, each call is answered within its limit and nothing but calls and pauses
takes time.  All else is left as open as in any run.

Timers go off late by less than a grain.  Where limits and pauses are multiples of
the grain this does not add up: a worker that is ahead of some multiples of the
grain stays ahead of them (`EndsBy.next`).  So the job is settled when its time
is over (`settled_in_time`).
-/
import DiskWatch.Proofs.CriticalSection
import DiskWatch.Proofs.Verdict

namespace DiskWatch

/-! ### How long an activity takes -/

namespace Activity

variable {α β : Type} {g m m' : Nat} {x y : Activity α} {clock : Clock}
  {since now stop : Instant}

/-- Whatever the answers, limits and pauses are multiples of `g`, and no more than `m`
in all. -/
inductive Within (g : Nat) : Nat → Activity α → Prop
  | done (m : Nat) (a : α) : Within g m (done a)
  | look {m : Nat} {path : Path} {next : PathStatus → Activity α}
      (h : ∀ status, Within g m (next status)) : Within g m (look path next)
  | call {m : Nat} {c : Call} {next : Except Error String → Activity α}
      (hc : g ∣ c.limit.nanos) (h : ∀ answer, Within g m (next answer)) :
      Within g (c.limit.nanos + m) (call c next)
  | pause {m : Nat} {length : Duration} {next : Bool → Activity α}
      (hl : g ∣ length.nanos) (h : ∀ cut, Within g m (next cut)) :
      Within g (length.nanos + m) (pause length next)
  | note {m : Nat} {n : Note} {next : Activity α} (h : Within g m next) :
      Within g m (note n next)

theorem Within.mono (h : x.Within g m) (hm : m ≤ m') : x.Within g m' := by
  induction h generalizing m' with
  | done m a => exact .done m' a
  | look h ih => exact .look fun status => ih status hm
  | call hc h ih =>
    obtain ⟨k, rfl⟩ := Nat.exists_eq_add_of_le hm
    rw [Nat.add_assoc]
    exact .call hc fun answer => ih answer (Nat.le_add_right ..)
  | pause hl h ih =>
    obtain ⟨k, rfl⟩ := Nat.exists_eq_add_of_le hm
    rw [Nat.add_assoc]
    exact .pause hl fun cut => ih cut (Nat.le_add_right ..)
  | note h ih => exact .note (ih hm)

theorem Within.bind {k : α → Activity β} (h : x.Within g m) (hk : ∀ a, (k a).Within g m') :
    (x.bind k).Within g (m + m') := by
  induction h with
  | done m a => exact (hk a).mono (Nat.le_add_left ..)
  | look h ih => exact .look ih
  | call hc h ih =>
    rw [Nat.add_assoc]
    exact .call hc ih
  | pause hl h ih =>
    rw [Nat.add_assoc]
    exact .pause hl ih
  | note h ih => exact .note ih

/-- Trying takes as often the time of an attempt as there are attempts, and the pauses. -/
theorem Within.tryFrom {op : Nat → Activity (Except Error α)}
    (hop : ∀ attempt, (op attempt).Within g m) (policy : RetryPolicy) (name : String)
    (spare attempt : Nat)
    (hd : ∀ i, attempt ≤ i → i < attempt + spare → g ∣ (policy.delayAfter i).nanos) :
    (tryFrom policy name op spare attempt).Within g
      ((spare + 1) * m + policy.pausesFrom attempt spare) := by
  induction spare generalizing attempt with
  | zero =>
    rw [Activity.tryFrom, Nat.zero_add, Nat.one_mul]
    apply (hop attempt).bind
    rintro (e | a)
    · show Within g _ (if !e.retryable then _ else _)
      split
      · exact .done _ _
      · exact .note (.done _ _)
    · exact .done _ _
  | succ spare ih =>
    have hrest := ih (attempt + 1) fun i hle hlt => hd i (by omega) (by omega)
    have hpause := hd attempt (Nat.le_refl attempt) (by omega)
    have htime : (spare + 1 + 1) * m + policy.pausesFrom attempt (spare + 1) =
        m + ((policy.delayAfter attempt).nanos +
          ((spare + 1) * m + policy.pausesFrom (attempt + 1) spare)) := by
      rw [RetryPolicy.pausesFrom_succ, Nat.succ_mul]
      omega
    rw [Activity.tryFrom, htime]
    apply (hop attempt).bind
    rintro (e | a)
    · show Within g _ (if !e.retryable then _ else _)
      split
      · exact .done _ _
      · -- the pause ends in a cancellation, or in the next attempt
        refine .note (.pause hpause fun cut => ?_)
        cases cut with
        | true => exact .done _ _
        | false => exact hrest
    · exact .done _ _

/-! ### By when an activity ends -/

/-- The instant by which the next exchange takes place, where the one before took
place at `since`. -/
def latest (clock : Clock) (since : Instant) : Activity α → Instant
  | call c _ => since + c.limit.nanos
  | pause length _ => clock.wake since length
  | _ => since

theorem le_latest : since ≤ x.latest clock since := by
  cases x with
  | call c next => exact Nat.le_add_right ..
  | pause length next => exact Clock.le_wake
  | _ => exact Nat.le_refl since

/-- An activity that is ahead of some multiple of the grain, from which on it ends by `stop`. -/
def EndsBy (clock : Clock) (since stop : Instant) (x : Activity α) : Prop :=
  ∃ u m, clock.grain ∣ u ∧ since ≤ u ∧ x.Within clock.grain m ∧ u + m ≤ stop

theorem EndsBy.since_le (h : x.EndsBy clock since stop) : since ≤ stop := by
  obtain ⟨u, m, -, hsince, -, hstop⟩ := h
  exact Nat.le_trans hsince (Nat.le_trans (Nat.le_add_right u m) hstop)

theorem EndsBy.of_le (h : x.EndsBy clock since stop) (hn : now ≤ since) :
    x.EndsBy clock now stop := by
  obtain ⟨u, m, hu, hsince, hx, hstop⟩ := h
  exact ⟨u, m, hu, Nat.le_trans hn hsince, hx, hstop⟩

/-- Whatever the answer to an exchange that takes place in time, the rest ends in time. -/
theorem EndsBy.next (h : x.EndsBy clock since stop) (hg : 0 < clock.grain)
    (hlimit : stop < clock.limit) (hn : x.Next y) (hnow : now ≤ x.latest clock since) :
    y.EndsBy clock now stop := by
  obtain ⟨u, m, hu, hsince, hx, hstop⟩ := h
  cases hn with
  | look path next status =>
    cases hx with
    | look hx => exact ⟨u, m, hu, Nat.le_trans hnow hsince, hx status, hstop⟩
  | note n next =>
    cases hx with
    | note hx => exact ⟨u, m, hu, Nat.le_trans hnow hsince, hx, hstop⟩
  | call c next answer =>
    cases hx with
    | @call m _ _ hc hx =>
      rw [← Nat.add_assoc] at hstop
      have hle : now ≤ u + c.limit.nanos := Nat.le_trans hnow (Nat.add_le_add_right hsince _)
      exact ⟨_, m, Nat.dvd_add hu hc, hle, hx answer, hstop⟩
  | pause length next cut =>
    cases hx with
    | @pause m _ _ hl hx =>
      rw [← Nat.add_assoc] at hstop
      have hshown : u + length.nanos < clock.limit :=
        Nat.lt_of_le_of_lt (Nat.le_trans (Nat.le_add_right ..) hstop) hlimit
      have hle : now ≤ u + length.nanos :=
        Nat.le_trans hnow (Clock.wake_le hg hu hl hsince hshown)
      exact ⟨_, m, Nat.dvd_add hu hl, hle, hx cut, hstop⟩

/-- The next exchange takes place before the end. -/
theorem EndsBy.latest_le (h : x.EndsBy clock since stop) (hg : 0 < clock.grain)
    (hlimit : stop < clock.limit) : x.latest clock since ≤ stop := by
  cases x with
  | call c next =>
    have hrest := h.next hg hlimit (.call c next (.error .cancelled)) (Nat.le_refl _)
    exact hrest.since_le
  | pause length next =>
    have hrest := h.next hg hlimit (.pause length next true) (Nat.le_refl _)
    exact hrest.since_le
  | _ => exact h.since_le

end Activity

namespace Measurement

open Activity (done call)

variable {g : Nat}

theorem within_noteOutside {α : Type} {m : Nat} {next : Activity α} (base : Path)
    (paths : List Path) (h : next.Within g m) : (noteOutside base paths next).Within g m := by
  induction paths with
  | nil => exact h
  | cons path paths ih => exact .note ih

/-- Reading a report takes no time. -/
theorem within_read (kind : JobKind) (report : String) : (read kind report).Within g 0 := by
  cases kind with
  | filesystem job => exact .note (.done _ _)
  | directory job =>
    show (readDirectory job report).Within g 0
    rw [readDirectory]
    dsimp only
    split
    · exact .note (.done _ _)
    · exact .note (within_noteOutside job.path _ (.done _ _))

/-- Checking a path takes no time. -/
theorem within_check (p : Path) : (Guard.check p).Within g 0 := by
  rw [Guard.check]
  split
  · exact .done _ _
  · exact .look fun status => .done _ _

/-- A measurement takes its limit once for each attempt, and the pauses. -/
theorem within_take (policy : RetryPolicy) (kind : JobKind) (timeout : Duration)
    (hc : g ∣ (callOf kind timeout).limit.nanos)
    (hd : ∀ i, 1 ≤ i → i < policy.attempts → g ∣ (policy.delayAfter i).nanos) :
    (take policy kind timeout).Within g (longest policy kind timeout) := by
  have hattempts : policy.attempts - 1 + 1 = policy.attempts :=
    Nat.sub_add_cancel policy.attempts_pos
  have hop : ∀ _ : Nat, (call (callOf kind timeout) done).Within g
      ((callOf kind timeout).limit.nanos + 0) :=
    fun _ => .call hc fun answer => .done 0 answer
  have htries := Activity.Within.tryFrom hop policy (callOf kind timeout).program
    (policy.attempts - 1) 1 (fun i hle hlt => hd i hle (by omega))
  rw [hattempts] at htries
  rw [longest, ← Nat.zero_add (_ + _)]
  apply (within_check kind.path).bind
  rintro (e | ⟨⟩)
  · exact .done _ _
  · rw [← Nat.add_zero (_ + _)]
    apply htries.bind
    rintro (e | report)
    · exact .done _ _
    · exact within_read kind report

end Measurement

/-! ### What a worker has left to do -/

namespace WorkerStage

variable {job : Job} {w : WorkerStage} {x : Activity (Except Error Measurement)}
  {policy : RetryPolicy} {clock : Clock} {since stop : Instant}

/-- What a worker at a job has left to do, before it settles it. -/
def left (policy : RetryPolicy) : WorkerStage → Option (Activity (Except Error Measurement))
  | holding job => some (Measurement.take policy job.kind job.timeout)
  | measuring _ _ rest => some rest
  | _ => none

/-- The instant by which a worker at a job does its next act, where the one before
took place at `since`. -/
def latest (clock : Clock) (since : Instant) : WorkerStage → Instant
  | measuring _ _ rest => rest.latest clock since
  | _ => since

theorem le_latest : since ≤ w.latest clock since := by
  cases w with
  | measuring job span rest => exact Activity.le_latest
  | _ => exact Nat.le_refl since

theorem latest_le (hx : w.left policy = some x) (h : x.EndsBy clock since stop)
    (hg : 0 < clock.grain) (hlimit : stop < clock.limit) : w.latest clock since ≤ stop := by
  cases w with
  | measuring job span rest =>
    cases hx
    exact h.latest_le hg hlimit
  | _ => exact h.since_le

end WorkerStage

namespace Engine

variable {ok : Engine → Act → Prop} {r : Routine} {n : Nat} {past later earlier : List Act}
  {s s' : Engine} {e : Act} {c : Category} {job : Job} {t stop : Instant}

/-! ### The time of an act -/

/-- What the clock shows after some acts. -/
def clockAt : List Act → Instant
  | [] => 0
  | .elapse t :: _ => t
  | _ :: past => clockAt past

theorem clockAt_cons (he : ∀ t, e ≠ .elapse t) : clockAt (e :: past) = clockAt past := by
  cases e with
  | elapse t => exact absurd rfl (he t)
  | _ => rfl

theorem clockAt_eq (h : RunUnder ok r n past s) : clockAt past = s.now := by
  induction h with
  | start => rfl
  | @step past s s' e _ hs _ ih =>
    by_cases he : ∃ t, e = .elapse t
    · obtain ⟨t, rfl⟩ := he
      cases hs
      rfl
    · have hne : ∀ t, e ≠ .elapse t := fun t ht => he ⟨t, ht⟩
      rw [clockAt_cons hne, ih, hs.now_eq hne]

/-- The clock showed this instant when an act took place. -/
def Happened (past : List Act) (e : Act) (t : Instant) : Prop :=
  ∃ later earlier, past = later ++ e :: earlier ∧ clockAt earlier = t

theorem Happened.append (later : List Act) (h : Happened past e t) :
    Happened (later ++ past) e t := by
  obtain ⟨after, before, rfl, ht⟩ := h
  exact ⟨later ++ after, before, (List.append_assoc ..).symm, ht⟩

/-- The instant of the latest act of a worker. -/
def lastMove (c : Category) : List Act → Instant
  | [] => 0
  | e :: past => if e.worker? = some c then clockAt past else lastMove c past

theorem lastMove_of_worker (he : e.worker? = some c) : lastMove c (e :: past) = clockAt past :=
  if_pos he

theorem lastMove_of_away (he : e.worker? ≠ some c) : lastMove c (e :: past) = lastMove c past :=
  if_neg he

/-! ### Punctual runs -/

/-- While a worker is at the job, time passes only while it waits for the answer to
a call or for the end of a pause, and not beyond the limit of the call or the end of
the pause. -/
def Timely (r : Routine) (job : Job) (past : List Act) (s : Engine) (e : Act) : Prop :=
  ∀ t, e = .elapse t → ∀ c, job ∈ (s.worker c).jobs →
    t ≤ (s.worker c).latest r.clock (lastMove c past)

/-- A run, with its history, in which nobody sleeps past a timer, and no call for the
job takes longer than its limit. -/
inductive Punctual (r : Routine) (job : Job) (n : Nat) : List Act → Engine → Prop
  | start {queue : Queue} (hq : Queue.build? n = some queue) : Punctual r job n [] (.start queue)
  | step {past : List Act} {s s' : Engine} {e : Act} (h : Punctual r job n past s)
      (hs : Step r s e s') (hp : Prompt r s e) (ht : Timely r job past s e) :
      Punctual r job n (e :: past) s'

theorem Punctual.run (h : Punctual r job n past s) : RunUnder (Prompt r) r n past s := by
  induction h with
  | start hq => exact .start hq
  | step _ hs hp _ ih => exact ih.step hs hp

/-- A punctual run can be taken apart before any of its acts. -/
theorem Punctual.split (h : Punctual r job n (later ++ e :: earlier) s) :
    ∃ s₁ s₂, Punctual r job n earlier s₁ ∧ Step r s₁ e s₂ := by
  induction later generalizing s with
  | nil =>
    cases h with
    | step h hs _ _ => exact ⟨_, _, h, hs⟩
  | cons _ later ih =>
    cases h with
    | step h _ _ _ => exact ih h

/-- While the clock stands still every act is timely. -/
theorem timely_of_still (he : ∀ t, e ≠ .elapse t) : Timely r job past s e :=
  fun t ht => absurd ht (he t)

theorem Punctual.still (h : Punctual r job n past s) (hs : Step r s e s')
    (he : ∀ t, e ≠ .elapse t) : Punctual r job n (e :: past) s' :=
  h.step hs (prompt_of_still he) (timely_of_still he)

/-- A run in which no time has passed. -/
theorem Punctual.of_still (h : RunUnder (fun _ e => ∀ t, e ≠ .elapse t) r n past s) :
    Punctual r job n past s := by
  induction h with
  | start hq => exact .start hq
  | step _ hs hok ih => exact ih.still hs hok

/-- A worker is at the job and will be done with it by `stop`. -/
structure OnPace (r : Routine) (past : List Act) (s : Engine) (c : Category) (job : Job)
    (stop : Instant) : Prop where
  jobs_eq : (s.worker c).jobs = [job]
  left : ∃ x, (s.worker c).left r.policy = some x ∧ x.EndsBy r.clock (lastMove c past) stop
  now_le : s.now ≤ (s.worker c).latest r.clock (lastMove c past)

/-- A worker that has moved and goes on with the rest is on pace, if the rest ends in time. -/
theorem OnPace.ofMove {span : Nat} {rest : Activity (Except Error Measurement)}
    (hrun : RunUnder ok r n past s) (hs : Step r s e s') (he : e.worker? = some c)
    (hw : s'.worker c = .measuring job span rest) (hends : rest.EndsBy r.clock s.now stop) :
    OnPace r (e :: past) s' c job stop := by
  have hlast : lastMove c (e :: past) = s.now := by rw [lastMove_of_worker he, clockAt_eq hrun]
  have hnow : s'.now = s.now := by
    apply hs.now_eq
    rintro t rfl
    cases he
  refine ⟨by rw [hw]; rfl, ⟨rest, by rw [hw]; rfl, hlast ▸ hends⟩, ?_⟩
  rw [hlast, hnow]
  exact WorkerStage.le_latest

/-- A worker at the job settles it or stays on pace. -/
theorem OnPace.step (h : OnPace r past s c job stop) (hrun : RunUnder ok r n past s)
    (hs : Step r s e s') (ht : Timely r job past s e) (hg : 0 < r.clock.grain)
    (hlimit : stop < r.clock.limit) :
    e = .settle c job ∨ OnPace r (e :: past) s' c job stop := by
  obtain ⟨hj, ⟨x, hx, hends⟩, hnow⟩ := h
  cases hs.turn c with
  | away he hw =>
    right
    refine ⟨hw ▸ hj, ⟨x, hw ▸ hx, ?_⟩, ?_⟩
    · rw [lastMove_of_away he]
      exact hends
    · rw [hw, lastMove_of_away he]
      by_cases helapse : ∃ t, e = .elapse t
      · obtain ⟨t, rfl⟩ := helapse
        have hle := ht t rfl c (hj ▸ List.mem_singleton_self job)
        cases hs
        exact hle
      · rw [hs.now_eq fun t hte => helapse ⟨t, hte⟩]
        exact hnow
  | idle _ hnone _ =>
    rw [hj] at hnone
    cases hnone
  | take _ _ hw _ =>
    rw [hw] at hj
    cases hj
  | begin other span he hw hw' =>
    -- what is left to do stays the same
    subst he
    right
    rw [hw] at hj hx hnow
    cases hj
    cases hx
    exact .ofMove hrun hs rfl hw' (hends.of_le hnow)
  | goOn other span before rest hc he hw hw' hn =>
    right
    rw [hw] at hj hx hnow
    cases hj
    cases hx
    exact .ofMove hrun hs hc hw' (hends.next hg hlimit hn hnow)
  | settle other he hj' _ _ =>
    left
    rw [hj] at hj'
    cases hj'
    exact he

/-- A worker that has taken the job out has settled it or is on pace. -/
theorem settled_or_onPace (h : Punctual r job n (later ++ .take c job :: earlier) s)
    (hx : (Measurement.take r.policy job.kind job.timeout).EndsBy r.clock (clockAt earlier) stop)
    (hg : 0 < r.clock.grain) (hlimit : stop < r.clock.limit) :
    .settle c job ∈ later ∨ OnPace r (later ++ .take c job :: earlier) s c job stop := by
  induction later generalizing s with
  | nil =>
    right
    have hw : s.worker c = .holding job := worker_of_take h.run
    have hlast : lastMove c (.take c job :: earlier) = clockAt earlier := lastMove_of_worker rfl
    refine ⟨by rw [hw]; rfl, ⟨_, by rw [hw]; rfl, hlast ▸ hx⟩, ?_⟩
    rw [List.nil_append, hlast, ← clockAt_eq h.run]
    exact WorkerStage.le_latest
  | cons e later ih =>
    cases h with
    | step h hs hp ht =>
      rcases ih h with hset | hpace
      · exact .inl (List.mem_cons_of_mem e hset)
      · rcases hpace.step h.run hs ht hg hlimit with rfl | hpace
        · exact .inl List.mem_cons_self
        · exact .inr hpace

/-- In a punctual run a job is settled when its time is over. -/
theorem settled_in_time (h : Punctual r job n past s) (htake : Happened past (.take c job) t)
    (hx : (Measurement.take r.policy job.kind job.timeout).EndsBy r.clock t stop)
    (hg : 0 < r.clock.grain) (hlimit : stop < r.clock.limit) (hlate : stop < s.now) :
    Settled past job := by
  obtain ⟨later, earlier, rfl, rfl⟩ := htake
  rcases settled_or_onPace h hx hg hlimit with hset | hpace
  · exact ⟨c, List.mem_append_left _ hset⟩
  · obtain ⟨x, hleft, hends⟩ := hpace.left
    have hnow := Nat.le_trans hpace.now_le (WorkerStage.latest_le hleft hends hg hlimit)
    exact absurd hlate (Nat.not_lt_of_le hnow)

end Engine

end DiskWatch
