/-
DiskWatch/Proofs/Feed.lean

The counters that observers read, and the books that the program keeps.  The same
event is counted at both, by different code: a tick that is skipped or not enqueued, a
watchdog that gives up, a run that ends, a job that goes into a queue or out of it.

A step adds one to one point of a counter, or to none (`Step.counters`), and it is told
from the act which point that is: for a job that is settled but for the kind of its
error, and for a watchdog that gives up but for the record that it finds in flight
(`Act.point?`).  So the points of an instrument add up to the number of acts of one kind
(`total_eq`).  The books are told by the history as well.

Main result: the two agree in every run (`feed_agrees`).
-/
import DiskWatch.Proofs.Rest
import DiskWatch.Proofs.Service

namespace DiskWatch

/-! ### Sums of points -/

/-- Whether a point belongs to an instrument and has all of these attributes. -/
def Counter.Shows (instrument : String) (attributes : List (String × String)) (key : Counter) :
    Prop :=
  key.instrument = instrument ∧ ∀ a ∈ attributes, a ∈ key.attributes

instance (instrument : String) (attributes : List (String × String)) (key : Counter) :
    Decidable (key.Shows instrument attributes) :=
  inferInstanceAs (Decidable (_ ∧ _))

namespace Metrics

/-- The sum of the entries of class `p`. -/
def sumOf (p : Counter → Bool) (entries : List (Counter × Nat)) : Nat :=
  ((entries.filter fun entry => p entry.1).map Prod.snd).sum

/-- The sum of all points of an instrument that have these attributes. -/
def total (m : Metrics) (instrument : String) (attributes : List (String × String)) : Nat :=
  sumOf (fun key => key.Shows instrument attributes) m.counters

theorem sumOf_cons (p : Counter → Bool) (key : Counter) (value : Nat)
    (entries : List (Counter × Nat)) :
    sumOf p ((key, value) :: entries) = (if p key then value else 0) + sumOf p entries := by
  unfold sumOf
  rw [List.filter_cons]
  split
  · rw [List.map_cons, List.sum_cons]
  · rw [Nat.zero_add]

/-- Counting adds one to a sum that the point belongs to. -/
theorem sumOf_change (p : Counter → Bool) (key : Counter) (entries : List (Counter × Nat)) :
    sumOf p (change key 0 (· + 1) entries) = sumOf p entries + if p key then 1 else 0 := by
  induction entries with
  | nil =>
    rw [change, sumOf_cons, Nat.add_comm]
  | cons entry entries ih =>
    obtain ⟨k, value⟩ := entry
    by_cases hk : k = key
    · subst hk
      rw [change, if_pos rfl, sumOf_cons, sumOf_cons]
      split <;> omega
    · rw [change, if_neg hk, sumOf_cons, sumOf_cons, ih, Nat.add_assoc]

/-- The entries after one more at a point, if there is one. -/
def bump (key : Option Counter) (entries : List (Counter × Nat)) : List (Counter × Nat) :=
  key.elim entries fun key => change key 0 (· + 1) entries

theorem sumOf_bump (p : Counter → Bool) (key : Option Counter) (entries : List (Counter × Nat)) :
    sumOf p (bump key entries) = sumOf p entries + if key.any p then 1 else 0 := by
  cases key with
  | none => rfl
  | some key => exact sumOf_change p key entries

end Metrics

open Metrics (bump sumOf)

/-! ### What the operations count -/

/-- The points of the counters. -/
def Telemetry.counters (o : Telemetry) : List (Counter × Nat) := o.metrics.counters

namespace Collector

variable {k k' : Collector} {job : Job} {c : Category}

/-- The points of the counters. -/
def counters (k : Collector) : List (Counter × Nat) := k.telemetry.counters

theorem counters_publishSchedule (t : Target) (o : Telemetry) :
    (publishSchedule t o).counters = o.counters := by
  unfold publishSchedule
  dsimp only
  split <;> rfl

theorem counters_publish (job : Job) (o : Telemetry) (m : Measurement) :
    (publish job o m).counters = o.counters :=
  publish_frame Telemetry.counters (fun _ _ _ => rfl) (fun _ _ => rfl) job o m

theorem counters_keep (span : Option Nat) (o : Telemetry) (n : Note) :
    (Activity.keep span o n).counters = o.counters := by
  cases n <;> rfl

theorem counters_concludeCycle (k : Collector) (cycle : Option Nat) (outcome : Outcome)
    (duration : Duration) : (k.concludeCycle cycle outcome duration).counters = k.counters := by
  cases cycle <;> rfl

/-- The kind of the error with which a measurement failed. -/
def failureOf : Except Error Measurement → Option String
  | .ok _ => none
  | .error e => some e.kind

theorem counters_report (job : Job) (now : Instant) (result : Except Error Measurement)
    (duration : Duration) (o : Telemetry) : (report job now result duration o).counters =
      bump (some (.completed job.category job.target (failureOf result))) o.counters := by
  have hlast : ∀ o : Telemetry, (if isSlow duration job.interval then
      o.log (.slowJob duration job.interval) else o).counters = o.counters := by
    intro o
    split <;> rfl
  cases result with
  | ok m =>
    refine (hlast _).trans ?_
    exact congrArg (bump (some (.completed job.category job.target none)))
      (counters_publish job o m)
  | error e => exact hlast _

theorem counters_settle (k : Collector) (job : Job) (span : Nat) (now : Instant)
    (result : Except Error Measurement) (duration : Duration) :
    (k.settle job span now result duration).counters =
      bump (some (.completed job.category job.target (failureOf result))) k.counters :=
  counters_report job now result duration _

theorem counters_begin {now : Instant} {span : Nat} (h : k.begin job now = (span, k')) :
    k'.counters = k.counters := by
  obtain rfl : (k.begin job now).2 = k' := by rw [h]
  show (ite _ _ _ : Telemetry).counters = _
  split <;> rfl

/-- What the queue does with a job that is handed over, by the error of the offer. -/
def operationFor : Option Error → QueueOperation
  | none => .enqueue
  | some (.queueFull _ _) => .enqueueFull
  | some _ => .enqueueClosed

theorem counters_enqueue {e : Option Error} (h : k.enqueue job = (e, k')) :
    k'.counters = bump (some (.queueOperation job.category (operationFor e))) k.counters := by
  obtain ⟨he, rfl⟩ := Prod.mk.inj h
  have hop : operationOf ((k.queues.get job.category).offer job).1 = operationFor e := by
    rw [← he]
    show _ = operationFor (offerError? _ _ ((k.queues.get job.category).offer job).1)
    cases ((k.queues.get job.category).offer job).1 <;> rfl
  rw [← hop]
  rfl

/-- The point of what the consumer finds. -/
def deliveryPoint? (c : Category) : Delivery → Option Counter
  | .job _ => some (.queueOperation c .dequeue)
  | _ => none

theorem counters_takeJob {d : Delivery} (h : k.takeJob c = (d, k')) :
    k'.counters = bump (deliveryPoint? c d) k.counters := by
  obtain ⟨rfl, rfl⟩ := Prod.mk.inj h
  show Telemetry.counters (match (k.queues.get c).take.1 with
    | .job _ => _
    | _ => _) = bump (deliveryPoint? c (k.queues.get c).take.1) k.counters
  cases (k.queues.get c).take.1 <;> rfl

/-- The point of a watchdog that closes, for the record that it finds in flight. -/
def verdictPoint? (record : Option Dispatch) : Verdict → Option Counter
  | .timedOut => record.map fun d => .watchdogTimeout d.category d.target
  | _ => none

theorem counters_closeWatch (k : Collector) (job : Job) (v : Verdict) (elapsed : Duration) :
    (k.closeWatch job.id job.cycle v elapsed).counters =
      bump (verdictPoint? (k.dispatch? job.id) v) k.counters := by
  rw [closeWatch, counters_concludeCycle]
  cases v with
  | timedOut =>
    show (publishTimeout (k.dispatch? job.id) job.id elapsed _).counters = _
    cases k.dispatch? job.id <;> rfl
  | _ => rfl

end Collector

namespace Engine

variable {ok : Engine → Act → Prop} {r : Routine} {n : Nat} {past : List Act} {s s' : Engine}
  {e : Act} {c : Category} {name : String}

/-! ### What a step counts -/

/-- The points of the counters. -/
def counters (s : Engine) : List (Counter × Nat) := s.collector.counters

/-- The point that an act adds one to, for the error of a job that is settled and for
the record of a watchdog that gives up. -/
def Act.point? (failure : Option String) (record : JobId → Option Dispatch) : Act → Option Counter
  | skip job => some (.skipped job.category job.target)
  | enqueue job e => some (.queueOperation job.category (Collector.operationFor e))
  | withdraw job e => some (.enqueueFailed job.category job.target e.kind)
  | take c _ => some (.queueOperation c .dequeue)
  | settle _ job => some (.completed job.category job.target failure)
  | close job v _ => Collector.verdictPoint? (record job.id) v
  | _ => none

/-- A step adds one to the point of its act, if there is one. -/
theorem Step.counters (h : Step r s e s') : ∃ failure,
    s'.counters = bump (e.point? failure s.collector.dispatch?) s.counters := by
  cases h with
  | register t => exact ⟨none, Collector.counters_publishSchedule t _⟩
  | draw hk => cases hk; exact ⟨none, rfl⟩
  | reserve _ hk => cases hk; exact ⟨none, rfl⟩
  | skip _ => exact ⟨none, Collector.counters_concludeCycle _ _ _ _⟩
  | refuse _ => exact ⟨none, Collector.counters_concludeCycle _ _ _ _⟩
  | withdraw _ => exact ⟨none, Collector.counters_concludeCycle _ _ _ _⟩
  | enqueue _ hk => exact ⟨none, Collector.counters_enqueue hk⟩
  | idle _ hk => exact ⟨none, Collector.counters_takeJob hk⟩
  | take _ hk => exact ⟨none, Collector.counters_takeJob hk⟩
  | begin _ hk => exact ⟨none, Collector.counters_begin hk⟩
  | note _ => exact ⟨none, Collector.counters_keep _ _ _⟩
  | @settle _ _ _ result _ _ _ =>
    exact ⟨Collector.failureOf result, Collector.counters_settle _ _ _ _ _ _⟩
  | finish _ hk hd =>
    refine ⟨none, ?_⟩
    have htake := Collector.counters_takeJob hk
    rcases hd with rfl | rfl <;> exact htake
  | close => exact ⟨none, Collector.counters_closeWatch _ _ _ _⟩
  | _ => exact ⟨none, rfl⟩

/-! ### What a run has counted -/

/-- The sum of all points of an instrument that have these attributes. -/
def total (s : Engine) (instrument : String) (attributes : List (String × String)) : Nat :=
  s.collector.telemetry.metrics.total instrument attributes

theorem total_def (s : Engine) (instrument : String) (attributes : List (String × String)) :
    s.total instrument attributes =
      sumOf (fun key => key.Shows instrument attributes) s.counters := rfl

section Total

variable {instrument : String} {attributes : List (String × String)} {q : Act → Bool}

/-- Where the acts of one kind are those that add one to a point of an instrument, the
sum of these points is the number of such acts. -/
theorem total_eq {P : List Act → Prop} (hgood : ∀ e past, P (e :: past) → P past)
    (hpoint : ∀ {past : List Act} {s s' : Engine} {e : Act}, RunUnder ok r n past s →
      Step r s e s' → P (e :: past) → ∀ failure,
        (e.point? failure s.collector.dispatch?).any (·.Shows instrument attributes) = q e)
    (h : RunUnder ok r n past s) (hg : P past) :
    s.total instrument attributes = past.countP q := by
  induction h with
  | start => rfl
  | step h hs _ ih =>
    obtain ⟨failure, hcounters⟩ := hs.counters
    rw [List.countP_cons, ← ih (hgood _ _ hg), ← hpoint h hs hg failure, total_def, total_def,
      hcounters, Metrics.sumOf_bump]

/-- The same where it is told from the act alone. -/
theorem total_eq_of_act (hpoint : ∀ (e : Act) (failure : Option String)
      (record : JobId → Option Dispatch),
      (e.point? failure record).any (·.Shows instrument attributes) = q e)
    (h : RunUnder ok r n past s) : s.total instrument attributes = past.countP q :=
  total_eq (P := fun _ => True) (fun _ _ => id) (fun _ _ _ failure => hpoint _ failure _) h
    trivial

end Total

/-- The number of acts is the number of jobs that come up by them. -/
theorem countP_eq_length (f : Act → Option Job) (past : List Act) :
    past.countP (fun e => (f e).isSome) = (jobs f past).length := by
  rw [jobs, List.length_reverse, List.length_filterMap_eq_countP]

/-- A watchdog that closes adds to no point but those of its own. -/
theorem any_verdictPoint? {p : Counter → Bool} (hp : ∀ c name, p (.watchdogTimeout c name) = false)
    (record : Option Dispatch) (v : Collector.Verdict) :
    (Collector.verdictPoint? record v).any p = false := by
  cases v with
  | timedOut =>
    cases record with
    | none => rfl
    | some d => exact hp d.category d.target
  | _ => rfl

theorem total_skipped (h : RunUnder ok r n past s) :
    s.total "duwatch.scheduler.skipped" [] = (jobs Act.skipped? past).length := by
  rw [← countP_eq_length]
  refine total_eq_of_act (fun e failure record => ?_) h
  cases e with
  | close => exact any_verdictPoint? (fun _ _ => by simp [Counter.Shows, Counter.instrument]) _ _
  | _ => simp [Act.point?, Act.skipped?, Counter.Shows, Counter.instrument]

theorem total_enqueueFailed (h : RunUnder ok r n past s) :
    s.total "duwatch.scheduler.enqueue_failed" [] = (jobs Act.withdrawn? past).length := by
  rw [← countP_eq_length]
  refine total_eq_of_act (fun e failure record => ?_) h
  cases e with
  | close => exact any_verdictPoint? (fun _ _ => by simp [Counter.Shows, Counter.instrument]) _ _
  | _ => simp [Act.point?, Act.withdrawn?, Counter.Shows, Counter.instrument]

/-- A watchdog that gives up finds the record of its job, so each is counted. -/
theorem total_timeouts (h : RunUnder ok r n past s) (hd : Distinct past) :
    s.total "duwatch.scheduler.watchdog_timeouts" [] =
      (jobs (Act.closedAs? .timedOut) past).length := by
  rw [← countP_eq_length]
  refine total_eq (fun _ _ => Distinct.of_cons) (fun {past s s' e} h hs hd failure => ?_) h hd
  cases hs with
  | @close job _ v _ hsen _ =>
    have hw := watched_of_sentry h (hsen ▸ Multiset.mem_cons_self _ _)
    rw [Act.point?, dispatch?_eq h hd.of_cons hw]
    cases v <;> simp [Collector.verdictPoint?, Act.closedAs?, Counter.Shows, Counter.instrument]
  | _ => simp [Act.point?, Act.closedAs?, Counter.Shows, Counter.instrument]

theorem name_inj {c d : Category} : c.name = d.name ↔ c = d := by
  cases c <;> cases d <;> decide

/-- Only a job that is taken in counts as enqueued. -/
theorem shows_enqueue {d : Category} {o : QueueOperation} :
    (Counter.queueOperation d o).Shows "duwatch.queue.operations"
      [("queue", c.name), ("operation", "enqueue")] ↔ d = c ∧ o = .enqueue := by
  cases o <;> simp [Counter.Shows, Counter.instrument, Counter.attributes, QueueOperation.label,
    name_inj, eq_comm]

theorem shows_dequeue {d : Category} {o : QueueOperation} :
    (Counter.queueOperation d o).Shows "duwatch.queue.operations"
      [("queue", c.name), ("operation", "dequeue")] ↔ d = c ∧ o = .dequeue := by
  cases o <;> simp [Counter.Shows, Counter.instrument, Counter.attributes, QueueOperation.label,
    name_inj, eq_comm]

theorem total_enqueued (h : RunUnder ok r n past s) (c : Category) :
    s.total "duwatch.queue.operations" [("queue", c.name), ("operation", "enqueue")] =
      (jobs (Act.acceptedIn? c) past).length := by
  rw [← countP_eq_length]
  refine total_eq_of_act (fun e failure record => ?_) h
  cases e with
  | close => exact any_verdictPoint? (fun _ _ => by simp [Counter.Shows, Counter.instrument]) _ _
  | enqueue job e =>
    have hop : Collector.operationFor e = .enqueue ↔ e = none := by
      rcases e with - | e
      · exact iff_of_true rfl rfl
      · cases e <;> simp [Collector.operationFor]
    rw [Act.point?, Option.any_some, Bool.eq_iff_iff, decide_eq_true_eq, shows_enqueue, hop]
    cases e <;> simp [Act.acceptedIn?]
  | take d job =>
    have hne : ¬(Counter.queueOperation d .dequeue).Shows "duwatch.queue.operations"
        [("queue", c.name), ("operation", "enqueue")] := by
      rw [shows_enqueue]
      rintro ⟨-, ⟨⟩⟩
    exact decide_eq_false hne
  | _ => simp [Act.point?, Act.acceptedIn?, Counter.Shows, Counter.instrument]

theorem total_dequeued (h : RunUnder ok r n past s) (c : Category) :
    s.total "duwatch.queue.operations" [("queue", c.name), ("operation", "dequeue")] =
      (jobs (Act.takenIn? c) past).length := by
  rw [← countP_eq_length]
  refine total_eq_of_act (fun e failure record => ?_) h
  cases e with
  | close => exact any_verdictPoint? (fun _ _ => by simp [Counter.Shows, Counter.instrument]) _ _
  | enqueue job e =>
    have hop : Collector.operationFor e ≠ .dequeue := by
      rcases e with - | e
      · simp [Collector.operationFor]
      · cases e <;> simp [Collector.operationFor]
    rw [Act.point?, Option.any_some, decide_eq_false (fun hs => hop (shows_dequeue.1 hs).2)]
    rfl
  | take d job =>
    rw [Act.point?, Option.any_some, Bool.eq_iff_iff, decide_eq_true_eq, shows_dequeue]
    simp [Act.takenIn?]
  | _ => simp [Act.point?, Act.takenIn?, Counter.Shows, Counter.instrument]

theorem shows_completed {d : Category} {target : String} {failure : Option String} :
    (Counter.completed d target failure).Shows "duwatch.job.completed"
      [("category", c.name), ("target", name)] ↔ d = c ∧ target = name := by
  rw [eq_comm (a := d), eq_comm (a := target)]
  simp [Counter.Shows, Counter.instrument, Counter.attributes, name_inj]

theorem total_completed (h : RunUnder ok r n past s) (c : Category) (name : String) :
    s.total "duwatch.job.completed" [("category", c.name), ("target", name)] =
      (jobs (Act.settledIn? c) past).countP (·.target = name) := by
  have hcount : past.countP (fun e => (e.settledIn? c).any fun job => job.target = name) =
      (jobs (Act.settledIn? c) past).countP (·.target = name) := by
    rw [jobs, List.countP_reverse, List.countP_filterMap]
    refine List.countP_congr fun e _ => ?_
    cases e.settledIn? c <;> rfl
  rw [← hcount]
  refine total_eq (P := fun _ => True) (fun _ _ => id) (fun {past s s' e} h hs _ failure => ?_)
    h trivial
  cases e with
  | close => exact any_verdictPoint? (fun _ _ => by simp [Counter.Shows, Counter.instrument]) _ _
  | settle d job =>
    -- a worker settles jobs of its category only
    obtain rfl := category_of_mem_jobs h hs.mem_jobs
    rw [Act.point?, Option.any_some, Bool.eq_iff_iff, decide_eq_true_eq, shows_completed]
    by_cases hc : job.category = c <;> simp [Act.settledIn?, hc]
  | _ => simp [Act.point?, Act.settledIn?, Counter.Shows, Counter.instrument]

/-! ### The feed and the books -/

/-- What went into a queue whose consumer is there came out of it or is in it. -/
theorem length_accepted (h : RunUnder ok r n past s) (hc : (s.queue c).consumed = true) :
    (jobs (Act.acceptedIn? c) past).length =
      (jobs (Act.takenIn? c) past).length + (s.queue c).size := by
  have hline := line h c
  have hon : s.worker c ≠ .stopped := fun hst => by simp [hline.consumed.2 hst] at hc
  obtain ⟨lost, horder, hlost⟩ := hline.order
  rw [horder, hlost hon, (sect h c).taken, Queue.size]
  simp only [List.length_append, List.length_nil, Nat.add_zero]

/-- At every moment of every run the counters agree with the books: with the totals of
ticks that were skipped or not enqueued, and with the size of a queue whose consumer is
there.  As long as identifiers tell the jobs apart they agree with the total of
watchdogs that gave up, and with the runs that the record of a target counts.
All that is counted in the books is a word, so the sums are read modulo 2^64, and as they
are for fewer than 2^64 ticks. -/
theorem feed_agrees (h : Run r n past s) :
    s.totals.skipped = .ofNat (s.total "duwatch.scheduler.skipped" []) ∧
    s.totals.enqueueFailed = .ofNat (s.total "duwatch.scheduler.enqueue_failed" []) ∧
    (∀ c, (s.queue c).consumed = true →
      s.total "duwatch.queue.operations" [("queue", c.name), ("operation", "enqueue")] =
        s.total "duwatch.queue.operations" [("queue", c.name), ("operation", "dequeue")] +
          (s.queue c).size) ∧
    (Distinct past →
      s.totals.watchdogTimeouts = .ofNat (s.total "duwatch.scheduler.watchdog_timeouts" []) ∧
      ∀ c name i, (s.ledger c).item? name = some i →
        i.completedRuns =
          .ofNat (s.total "duwatch.job.completed" [("category", c.name), ("target", name)])) ∧
    ((jobs Act.drawn? past).length < 2 ^ 64 → Distinct past ∧
      s.totals.skipped.toNat = s.total "duwatch.scheduler.skipped" [] ∧
      s.totals.enqueueFailed.toNat = s.total "duwatch.scheduler.enqueue_failed" [] ∧
      s.totals.watchdogTimeouts.toNat = s.total "duwatch.scheduler.watchdog_timeouts" [] ∧
      ∀ c name i, (s.ledger c).item? name = some i →
        i.completedRuns.toNat =
          s.total "duwatch.job.completed" [("category", c.name), ("target", name)]) := by
  have hstats := stats_eq h
  refine ⟨?_, ?_, fun c hc => ?_, fun hd => ⟨?_, fun c name i hi => ?_⟩, fun few => ?_⟩
  · rw [total_skipped h, totals, hstats]
  · rw [total_enqueueFailed h, totals, hstats]
  · rw [total_enqueued h, total_dequeued h, length_accepted h hc]
  · rw [total_timeouts h hd, totals, hstats]
  · have hcounts := counts h hd c name
    rw [Ledger.tally_of_item? hi] at hcounts
    rw [total_completed h]
    exact hcounts.runs
  · have hd := distinct_of_few h few
    -- no total exceeds the number of draws
    have hended := Multiset.card_le_card (ended_le h)
    have hclosed := Multiset.card_le_card ((closed_le h).trans (dispatched_le h))
    rw [ended_eq] at hended
    simp only [Multiset.card_add, Multiset.coe_card, length_closed] at hended hclosed
    have hword : ∀ k, k < 2 ^ 64 → (UInt64.ofNat k).toNat = k := fun k hk =>
      UInt64.toNat_ofNat_of_lt' hk
    refine ⟨hd, ?_, ?_, ?_, fun c name i hi => ?_⟩
    · rw [total_skipped h, totals, hstats, hword _ (by omega)]
    · rw [total_enqueueFailed h, totals, hstats, hword _ (by omega)]
    · rw [total_timeouts h hd, totals, hstats, hword _ (by omega)]
    · have hruns := counts_exact h few c name
      rw [Ledger.tally_of_item? hi] at hruns
      rw [total_completed h]
      exact hruns

/-- A second tick comes while the job of the first one waits in the queue. -/
theorem feed_agrees_on_skip : ∃ past s, Run .standard 1 past s ∧ s.totals.skipped = 1 ∧
    UInt64.ofNat (s.total "duwatch.scheduler.skipped" []) = 1 ∧ (s.queue .filesystem).size = 1 ∧
    s.total "duwatch.queue.operations" [("queue", "filesystem"), ("operation", "enqueue")] =
      s.total "duwatch.queue.operations" [("queue", "filesystem"), ("operation", "dequeue")] + 1 := by
  let before := (Collector.start (.both ⟨1, [], true, 1⟩)).register sampleTarget
  have h₀ : Run .standard 1 [] (start ⟨1, [], true, 1⟩) := .start rfl
  have h₁ := h₀.step (.register _ sampleTarget) trivial
  obtain ⟨job, hjob⟩ : ∃ job, (before.tick sampleTarget 7).1 = .enqueued job := ⟨_, rfl⟩
  have h₂ := h₁.handedOver (fun _ _ _ => trivial) sampleTarget 7
    (show before.tick sampleTarget 7 = (.enqueued job, (before.tick sampleTarget 7).2) from
      Prod.ext hjob rfl)
  obtain ⟨acts, -, hskip⟩ := leads_of_tick (r := .standard)
    (s := { start ⟨1, [], true, 1⟩ with
      collector := (before.tick sampleTarget 7).2, sentries := ⟨job, none⟩ ::ₘ 0 })
    (show (before.tick sampleTarget 7).2.tick sampleTarget 8 =
      (.skipped, ((before.tick sampleTarget 7).2.tick sampleTarget 8).2) from Prod.ext rfl rfl)
  have h₃ := h₂.leads hskip fun _ _ _ => trivial
  obtain ⟨hskipped, -, hqueues, -, -⟩ := feed_agrees h₃
  exact ⟨_, _, h₃, rfl, hskipped.symm, rfl, hqueues .filesystem rfl⟩

end Engine

end DiskWatch
