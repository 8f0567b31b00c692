/-
DiskWatch/Proofs/HandOver.lean

The line of a category: its queue and its worker.  Ticks put jobs in at the one
end, the worker takes them out at the other, and between these two the line
keeps them in order.

Each step leaves a line as it is, or takes one job in, or moves one job from the
queue to the worker, or settles the worker's job, or stops the worker
(`Step.line`).  From this follows what a line looks like in every run (`Line`):
the jobs that were taken in are those settled, then the one at the worker, then
those in the queue.
-/
import DiskWatch.Proofs.Identity

namespace DiskWatch

/-! ### The operations on a queue -/

namespace Queue

/-- The queue with one more job at its end. -/
def push (q : Queue) (job : Job) : Queue := { q with jobs := q.jobs ++ [job] }

theorem build?_eq_some {n : Nat} {q : Queue} (h : build? n = some q) :
    q = ⟨max 1 n, [], true, 1⟩ := by
  unfold build? at h
  split at h
  · exact (Option.some.inj h).symm
  · cases h

/-- What an offer comes to. -/
theorem offer_eq (q : Queue) (job : Job) :
    q.consumed = false ∧ q.offer job = (.closed, q) ∨
      q.consumed = true ∧ q.capacity ≤ q.size ∧ q.offer job = (.full, q) ∨
      q.consumed = true ∧ q.size < q.capacity ∧ q.offer job = (.accepted, q.push job) := by
  unfold offer
  cases hc : q.consumed with
  | false => exact .inl ⟨rfl, rfl⟩
  | true =>
    by_cases hf : q.capacity ≤ q.size
    · exact .inr (.inl ⟨rfl, hf, by simp [hf]⟩)
    · exact .inr (.inr ⟨rfl, by omega, by simp [hf, hc, push]⟩)

/-- What taking a job out comes to: the first one leaves, or nothing changes. -/
theorem take_eq (q : Queue) :
    (∃ job rest, q.consumed = true ∧ q.jobs = job :: rest ∧
      q.take = (.job job, { q with jobs := rest })) ∨
    ((∀ job, q.take.1 ≠ .job job) ∧ q.take.2 = q) := by
  unfold take
  cases hc : q.consumed with
  | false => exact .inr ⟨by simp, rfl⟩
  | true =>
    cases hj : q.jobs with
    | nil => exact .inr ⟨by intro job; by_cases hp : q.producers = 0 <;> simp [hp], rfl⟩
    | cons job rest => exact .inl ⟨job, rest, rfl, rfl, rfl⟩

end Queue

namespace Collector

variable {k k' : Collector} {job : Job} {c : Category}

theorem enqueue_eq (k : Collector) (job : Job) :
    (k.enqueue job).1 = offerError? job.category (k.queues.get job.category)
        ((k.queues.get job.category).offer job).1 ∧
      (k.enqueue job).2.queues =
        k.queues.set job.category ((k.queues.get job.category).offer job).2 :=
  ⟨rfl, rfl⟩

/-- A job is taken in only where the consumer is there and has room. -/
theorem enqueue_none (h : k.enqueue job = (none, k')) :
    (k.queues.get job.category).consumed = true ∧
      (k.queues.get job.category).size < (k.queues.get job.category).capacity ∧
      k'.queues = k.queues.set job.category ((k.queues.get job.category).push job) := by
  obtain ⟨he, hq⟩ := enqueue_eq k job
  rw [h] at he hq
  rcases (k.queues.get job.category).offer_eq job with ⟨_, ho⟩ | ⟨_, _, ho⟩ | ⟨hc, hs, ho⟩
  · rw [ho] at he; cases he
  · rw [ho] at he; cases he
  · rw [ho] at hq; exact ⟨hc, hs, hq⟩

/-- A job is refused with the reason for it, and the queues stay as they are. -/
theorem enqueue_some {e : Error} (h : k.enqueue job = (some e, k')) :
    k'.queues = k.queues ∧
      ((k.queues.get job.category).consumed = false ∧ e = .queueClosed job.category ∨
        (k.queues.get job.category).consumed = true ∧
          (k.queues.get job.category).capacity ≤ (k.queues.get job.category).size ∧
          e = .queueFull job.category (k.queues.get job.category).capacity) := by
  obtain ⟨he, hq⟩ := enqueue_eq k job
  rw [h] at he hq
  rcases (k.queues.get job.category).offer_eq job with ⟨hc, ho⟩ | ⟨hc, hs, ho⟩ | ⟨_, _, ho⟩
  · rw [ho] at he hq
    exact ⟨by rw [hq, PerCategory.set_get], .inl ⟨hc, Option.some.inj he⟩⟩
  · rw [ho] at he hq
    exact ⟨by rw [hq, PerCategory.set_get], .inr ⟨hc, hs, Option.some.inj he⟩⟩
  · rw [ho] at he; cases he

/-- The job that a worker takes out was the first in the queue. -/
theorem takeJob_job (h : k.takeJob c = (.job job, k')) :
    ∃ rest, (k.queues.get c).consumed = true ∧ (k.queues.get c).jobs = job :: rest ∧
      k'.queues = k.queues.set c { k.queues.get c with jobs := rest } := by
  have hd : (k.queues.get c).take.1 = .job job := congrArg Prod.fst h
  have hq : k.queues.set c (k.queues.get c).take.2 = k'.queues := congrArg (fun p => p.2.queues) h
  rcases (k.queues.get c).take_eq with ⟨first, rest, hc, hj, ht⟩ | ⟨hn, -⟩
  · rw [ht] at hd hq
    cases hd
    exact ⟨rest, hc, hj, hq.symm⟩
  · exact absurd hd (hn job)

/-- Where no job is taken out the queues stay as they are. -/
theorem takeJob_of_ne {d : Delivery} (hd : ∀ job, d ≠ .job job) (h : k.takeJob c = (d, k')) :
    k'.queues = k.queues := by
  have hd' : (k.queues.get c).take.1 = d := congrArg Prod.fst h
  have hq : k.queues.set c (k.queues.get c).take.2 = k'.queues := congrArg (fun p => p.2.queues) h
  rcases (k.queues.get c).take_eq with ⟨first, rest, _, _, ht⟩ | ⟨_, ht⟩
  · rw [ht] at hd'
    exact absurd hd'.symm (hd first)
  · rw [← hq, ht, PerCategory.set_get]

end Collector

namespace Engine

variable {ok : Engine → Act → Prop} {r : Routine} {n : Nat} {past : List Act} {s s' : Engine}
  {e : Act} {c : Category}

/-! ### Lines -/

/-- The job that the queue of a category takes in by an act. -/
def Act.acceptedIn? (c : Category) : Act → Option Job
  | enqueue job none => if job.category = c then some job else none
  | _ => none

/-- The job that the worker of a category settles by an act. -/
def Act.settledIn? (c : Category) : Act → Option Job
  | settle d job => if d = c then some job else none
  | _ => none

theorem eq_settle {job : Job} (h : e.settledIn? c = some job) : e = .settle c job := by
  cases e with
  | settle d other =>
    by_cases hd : d = c
    · rw [Act.settledIn?, if_pos hd] at h
      rw [hd, Option.some.inj h]
    · rw [Act.settledIn?, if_neg hd] at h
      cases h
  | _ => cases h

/-- The queue of a category. -/
def queue (s : Engine) (c : Category) : Queue := s.collector.queues.get c

/-- The worker of a category. -/
def worker (s : Engine) (c : Category) : WorkerStage := s.workers.get c

@[simp] theorem queue_start (q : Queue) (c : Category) : (start q).queue c = q :=
  PerCategory.get_both q c

@[simp] theorem worker_start (q : Queue) (c : Category) : (start q).worker c = .free :=
  PerCategory.get_both _ c

/-- What a step does to the line of a category. -/
inductive LineStep (c : Category) (s : Engine) (e : Act) (s' : Engine) : Prop
  | still (hq : s'.queue c = s.queue c) (hj : (s'.worker c).jobs = (s.worker c).jobs)
      (hs : s'.worker c = .stopped ↔ s.worker c = .stopped)
      (ha : e.acceptedIn? c = none) (hd : e.settledIn? c = none)
  | accept (job : Job) (he : e = .enqueue job none) (hc : job.category = c)
      (hn : (s.queue c).consumed = true) (hs : (s.queue c).size < (s.queue c).capacity)
      (hq : s'.queue c = (s.queue c).push job) (hw : s'.worker c = s.worker c)
  | take (job : Job) (rest : List Job) (he : e = .take c job)
      (hj : (s.queue c).jobs = job :: rest) (hq : s'.queue c = { s.queue c with jobs := rest })
      (hw : s.worker c = .ready) (hw' : s'.worker c = .holding job)
  | settle (job : Job) (he : e = .settle c job) (hq : s'.queue c = s.queue c)
      (hw : (s.worker c).jobs = [job]) (hw' : s'.worker c = .free)
  | stop (he : e = .stop c) (hq : s'.queue c = (s.queue c).dropConsumer)
      (hw : (s.worker c).jobs = []) (hw' : s'.worker c = .stopped)

/-- A worker that goes on with what it is at. -/
theorem LineStep.goOn {d : Category} {w w' : WorkerStage} (hw : s.workers.get d = w)
    (hs : s'.workers = s.workers.set d w') (hj : w'.jobs = w.jobs) (hn : w ≠ .stopped)
    (hn' : w' ≠ .stopped) (hq : s'.collector.queues = s.collector.queues)
    (ha : e.acceptedIn? c = none) (hd : e.settledIn? c = none) : LineStep c s e s' := by
  by_cases hcd : c = d
  · subst hcd
    refine .still (by rw [queue, hq]; rfl) ?_ ?_ ha hd
    · rw [worker, worker, hs, PerCategory.get_set, hw, hj]
    · rw [worker, worker, hs, PerCategory.get_set, hw]
      exact iff_of_false hn' hn
  · have hget : s'.worker c = s.worker c := by
      rw [worker, hs, PerCategory.get_set_of_ne _ _ hcd]; rfl
    exact .still (by rw [queue, hq]; rfl) (by rw [hget]) (by rw [hget]) ha hd

/-- What a step does to a line. -/
theorem Step.line (h : Step r s e s') (c : Category) : LineStep c s e s' := by
  cases h with
  | @enqueue job e k ticks ht hk =>
    cases e with
    | some e =>
      obtain ⟨hq, -⟩ := Collector.enqueue_some hk
      exact .still (congrArg (·.get c) hq) rfl Iff.rfl rfl rfl
    | none =>
      obtain ⟨hc, hs, hq⟩ := Collector.enqueue_none hk
      by_cases hcd : job.category = c
      · subst hcd
        refine .accept job rfl rfl hc hs ?_ rfl
        rw [queue, hq, PerCategory.get_set]; rfl
      · refine .still ?_ rfl Iff.rfl (if_neg hcd) rfl
        rw [queue, hq, PerCategory.get_set_of_ne _ _ (Ne.symm hcd)]; rfl
  | ready hw _ => exact .goOn hw rfl rfl nofun nofun rfl rfl rfl
  | idle hw hk => exact .goOn hw rfl rfl nofun nofun (Collector.takeJob_of_ne (by simp) hk) rfl rfl
  | @take d job k hw hk =>
    obtain ⟨rest, -, hj, hq⟩ := Collector.takeJob_job hk
    by_cases hcd : c = d
    · subst hcd
      refine .take job rest rfl hj ?_ hw (PerCategory.get_set _ _ _)
      rw [queue, hq, PerCategory.get_set]; rfl
    · refine .still ?_ ?_ ?_ rfl rfl
      · rw [queue, hq, PerCategory.get_set_of_ne _ _ hcd]; rfl
      · rw [worker, PerCategory.get_set_of_ne _ _ hcd]; rfl
      · rw [worker, PerCategory.get_set_of_ne _ _ hcd]; rfl
  | begin hw hk =>
    refine .goOn hw rfl rfl nofun nofun ?_ rfl rfl
    exact (congrArg (fun p => p.2.queues) hk).symm
  | look hw _ | call hw _ | pause hw _ | note hw =>
    exact .goOn hw rfl rfl nofun nofun rfl rfl rfl
  | @settle d job span result now duration hw =>
    by_cases hcd : c = d
    · subst hcd
      exact .settle job rfl rfl (congrArg WorkerStage.jobs hw) (PerCategory.get_set _ _ _)
    · have hget := PerCategory.get_set_of_ne s.workers WorkerStage.free hcd
      exact .still rfl (congrArg WorkerStage.jobs hget) (by rw [worker, hget]; rfl) rfl
        (if_neg (Ne.symm hcd))
  | @stop d hw _ =>
    by_cases hcd : c = d
    · subst hcd
      refine .stop rfl ?_ (congrArg WorkerStage.jobs hw) (PerCategory.get_set _ _ _)
      exact PerCategory.get_update _ _ _
    · have hget := PerCategory.get_set_of_ne s.workers WorkerStage.stopped hcd
      exact .still (PerCategory.get_update_of_ne _ _ hcd) (congrArg WorkerStage.jobs hget)
        (by rw [worker, hget]; rfl) rfl rfl
  | @finish d delivery k hw hk hd =>
    have hq := Collector.takeJob_of_ne (by rcases hd with rfl | rfl <;> simp) hk
    by_cases hcd : c = d
    · subst hcd
      refine .stop rfl ?_ (congrArg WorkerStage.jobs hw) (PerCategory.get_set _ _ _)
      exact (PerCategory.get_update _ _ _).trans (congrArg (fun q => (q.get c).dropConsumer) hq)
    · have hget := PerCategory.get_set_of_ne s.workers WorkerStage.stopped hcd
      refine .still ?_ (congrArg WorkerStage.jobs hget) (by rw [worker, hget]; rfl) rfl rfl
      exact (PerCategory.get_update_of_ne _ _ hcd).trans (congrArg (·.get c) hq)
  | draw hk | reserve _ hk =>
    have hq := (congrArg (fun p => p.2.queues.get c) hk).symm
    exact .still hq rfl Iff.rfl rfl rfl
  | _ => exact .still rfl rfl Iff.rfl rfl rfl

/-! ### Lines in a run -/

/-- What a line looks like: the queue is within its capacity and is there as long
as the worker has not stopped, and the jobs that were taken in are, in this
order, those settled, the one at the worker, those in the queue, and those lost
with the queue. -/
structure Line (n : Nat) (past : List Act) (s : Engine) (c : Category) : Prop where
  capacity : (s.queue c).capacity = max 1 n
  size_le : (s.queue c).size ≤ max 1 n
  consumed : (s.queue c).consumed = false ↔ s.worker c = .stopped
  emptied : s.worker c = .stopped → (s.queue c).jobs = []
  order : ∃ lost, jobs (Act.acceptedIn? c) past =
    jobs (Act.settledIn? c) past ++ (s.worker c).jobs ++ (s.queue c).jobs ++ lost ∧
      (s.worker c ≠ .stopped → lost = [])

/-- Every run keeps the lines. -/
theorem line (h : RunUnder ok r n past s) (c : Category) : Line n past s c := by
  induction h with
  | start hq =>
    cases Queue.build?_eq_some hq
    refine ⟨?_, ?_, ?_, ?_, [], ?_, fun _ => rfl⟩
    · rw [queue_start]
    · rw [queue_start]; exact Nat.zero_le _
    · simp
    · rw [queue_start]; exact fun _ => rfl
    · rw [queue_start, worker_start]; rfl
  | @step past s s' e _ hs _ ih =>
    obtain ⟨lost, horder, hlost⟩ := ih.order
    cases hs.line c with
    | still hq hj hstop ha hd =>
      refine ⟨hq ▸ ih.capacity, hq ▸ ih.size_le, hq ▸ ih.consumed.trans hstop.symm,
        fun hn => hq ▸ ih.emptied (hstop.1 hn), lost, ?_, fun hn => hlost (mt hstop.2 hn)⟩
      rw [jobs_cons, jobs_cons, ha, hd, hj, hq]
      simpa using horder
    | accept job he hc hn hsz hq hw =>
      subst he
      -- the consumer is there, so nothing has been lost so far
      have hon : s.worker c ≠ .stopped := fun hst => by simp [ih.consumed.2 hst] at hn
      refine ⟨hq ▸ ih.capacity, ?_, ?_, fun hst => absurd (hw ▸ hst) hon, [], ?_, fun _ => rfl⟩
      · rw [hq, Queue.size, Queue.push, List.length_append, List.length_singleton]
        rw [ih.capacity] at hsz
        exact hsz
      · rw [hq, hw]; exact ih.consumed
      · have ha : Act.acceptedIn? c (.enqueue job none) = some job := if_pos hc
        have hd : Act.settledIn? c (.enqueue job none) = none := rfl
        rw [jobs_cons, jobs_cons, ha, hd, horder, hlost hon, hq, hw, Queue.push]
        simp
    | take job rest he hj hq hw hw' =>
      subst he
      -- the head of the queue goes to the worker, and the order of the parts stays
      refine ⟨hq ▸ ih.capacity, ?_, ?_, fun hst => by simp [hw'] at hst, lost, ?_,
        fun _ => hlost (by simp [hw])⟩
      · have := ih.size_le
        rw [Queue.size, hj, List.length_cons] at this
        rw [hq]
        exact Nat.le_of_succ_le this
      · rw [hq, hw', ih.consumed, hw]; simp
      · have ha : Act.acceptedIn? c (.take c job) = none := rfl
        have hd : Act.settledIn? c (.take c job) = none := rfl
        rw [jobs_cons, jobs_cons, ha, hd, hq, hw']
        simpa [hj, hw, WorkerStage.jobs] using horder
    | settle job he hq hw hw' =>
      subst he
      -- the worker was at this job, so it has not stopped
      have hon : s.worker c ≠ .stopped := fun hst => by simp [hst, WorkerStage.jobs] at hw
      refine ⟨hq ▸ ih.capacity, hq ▸ ih.size_le, ?_, fun hst => by simp [hw'] at hst, lost, ?_,
        fun _ => hlost hon⟩
      · rw [hq, ih.consumed, hw']
        exact iff_of_false hon (by simp)
      · have ha : Act.acceptedIn? c (.settle c job) = none := rfl
        have hd : Act.settledIn? c (.settle c job) = some job := if_pos rfl
        rw [hw] at horder
        rw [jobs_cons, jobs_cons, ha, hd, hq, hw']
        simpa [WorkerStage.jobs] using horder
    | stop he hq hw hw' =>
      subst he
      -- what was in the queue is lost with it, and what comes later is refused
      refine ⟨hq ▸ ih.capacity, hq ▸ Nat.zero_le _, ?_, fun _ => by rw [hq]; rfl,
        (s.queue c).jobs ++ lost, ?_, fun hn => absurd hw' hn⟩
      · rw [hq, hw']; exact iff_of_true rfl rfl
      · have ha : Act.acceptedIn? c (.stop c) = none := rfl
        have hd : Act.settledIn? c (.stop c) = none := rfl
        rw [hw] at horder
        rw [jobs_cons, jobs_cons, ha, hd, hq, hw']
        simpa [WorkerStage.jobs, Queue.dropConsumer] using horder

/-! ### What the line says about single jobs -/

theorem acceptedIn_sublist (c : Category) (past : List Act) :
    (jobs (Act.acceptedIn? c) past).Sublist (jobs Act.accepted? past) := by
  refine jobs_sublist (fun e job he => ?_) past
  cases e with
  | enqueue other e =>
    cases e with
    | some e => cases he
    | none =>
      by_cases hc : other.category = c
      · rwa [Act.acceptedIn?, if_pos hc] at he
      · rw [Act.acceptedIn?, if_neg hc] at he; cases he
  | _ => cases he

/-- A job that the queue of a category took in is of that category. -/
theorem category_of_mem_acceptedIn {job : Job} (hj : job ∈ jobs (Act.acceptedIn? c) past) :
    job.category = c := by
  obtain ⟨e, -, he⟩ := mem_jobs.1 hj
  cases e with
  | enqueue other e =>
    cases e with
    | some e => cases he
    | none =>
      by_cases hc : other.category = c
      · rw [Act.acceptedIn?, if_pos hc] at he; exact Option.some.inj he ▸ hc
      · rw [Act.acceptedIn?, if_neg hc] at he; cases he
  | _ => cases he

/-- The three places of a line hold jobs that were taken in. -/
theorem Line.mem_acceptedIn (hl : Line n past s c) {job : Job}
    (hj : job ∈ jobs (Act.settledIn? c) past ++ (s.worker c).jobs ++ (s.queue c).jobs) :
    job ∈ jobs (Act.acceptedIn? c) past := by
  obtain ⟨lost, horder, -⟩ := hl.order
  rw [horder]
  exact List.mem_append_left lost hj

/-- The job that an act offers to a queue. -/
def Act.offered? : Act → Option Job
  | enqueue job _ => some job
  | _ => none

/-- No job is offered twice: what was taken in and what was refused are parts of
the draws that have no job in common. -/
theorem offered_nodup (h : RunUnder ok r n past s) : (jobs Act.offered? past).Nodup := by
  have hin : Act.entering (fun stage => stage matches .drawn | .decided _) = Act.drawn? := by
    funext e; cases e <;> rfl
  have hflow := flow (fun stage => stage matches .drawn | .decided _) h
  rw [hin] at hflow
  -- a tick that offers its job leaves the stages before the offer
  have hleft : (jobs (Act.leaving fun stage => stage matches .drawn | .decided _) past).Nodup := by
    refine jobs_nodup_of_le ?_ (drawn_nodup h)
    rw [hflow]
    exact Multiset.le_add_left _ _
  refine List.Nodup.sublist (jobs_sublist (fun e job he => ?_) past) hleft
  cases e with
  | enqueue other e => exact he
  | _ => cases he

theorem accepted_disjoint_rejected (h : RunUnder ok r n past s) {job : Job}
    (hj : job ∈ jobs Act.rejected? past) : job ∉ jobs Act.accepted? past := by
  have hsplit := jobs_add (f := Act.offered?) (g := Act.accepted?) (k := Act.rejected?)
    (fun e => by cases e with
      | enqueue job e => cases e <;> rfl
      | _ => rfl) past
  -- the offers are the sum of both kinds, and there is no job twice among them
  have hnodup := Multiset.coe_nodup.2 (offered_nodup h)
  rw [hsplit, Multiset.coe_add, Multiset.coe_nodup, List.nodup_append'] at hnodup
  exact fun hacc => hnodup.2.2 hacc hj

theorem accepted_nodup (h : RunUnder ok r n past s) : (jobs Act.accepted? past).Nodup := by
  refine List.Nodup.sublist (jobs_sublist (fun e job he => ?_) past) (offered_nodup h)
  cases e with
  | enqueue other e => cases e with
    | none => exact he
    | some e => cases he
  | _ => cases he

theorem acceptedIn_nodup (h : RunUnder ok r n past s) (c : Category) :
    (jobs (Act.acceptedIn? c) past).Nodup :=
  (accepted_nodup h).sublist (acceptedIn_sublist c past)

/-- What an offer to the queue of a category comes to. -/
theorem Line.enqueue_eq (hl : Line n past s c) {job : Job} (hc : job.category = c) :
    s.worker c = .stopped ∧ (s.queue c).size = 0 ∧
        (s.collector.enqueue job).1 = some (.queueClosed c) ∨
      s.worker c ≠ .stopped ∧ (s.queue c).size = max 1 n ∧
        (s.collector.enqueue job).1 = some (.queueFull c (max 1 n)) ∨
      s.worker c ≠ .stopped ∧ (s.queue c).size < max 1 n ∧
        (s.collector.enqueue job).1 = none := by
  subst hc
  have hcap := hl.capacity
  have hle := hl.size_le
  obtain ⟨he, -⟩ := Collector.enqueue_eq s.collector job
  -- the queue refuses because it is closed or full, or takes the job in
  rcases (s.queue job.category).offer_eq job with ⟨hn, ho⟩ | ⟨hn, hs, ho⟩ | ⟨hn, hs, ho⟩ <;>
    rw [queue] at ho <;> rw [ho] at he
  · have hst := hl.consumed.1 hn
    exact .inl ⟨hst, congrArg List.length (hl.emptied hst), he⟩
  · refine .inr (.inl ⟨fun hst => ?_, by omega, ?_⟩)
    · simp [hl.consumed.2 hst] at hn
    · rw [he, ← hcap]; rfl
  · refine .inr (.inr ⟨fun hst => ?_, by omega, he⟩)
    simp [hl.consumed.2 hst] at hn

/-! ### Sampled depths -/

/-- Changing the ledger of a category to one of the same depth changes no depth. -/
theorem depth_update {p : PerCategory Ledger} {d : Category} {f : Ledger → Ledger}
    (h : (f (p.get d)).depth = (p.get d).depth) (c : Category) :
    ((p.update d f).get c).depth = (p.get c).depth := by
  by_cases hcd : c = d
  · subst hcd; rw [PerCategory.get_update, h]
  · rw [PerCategory.get_update_of_ne _ _ hcd]

/-- Only the sampler changes a recorded depth. -/
theorem Step.depth (h : Step r s e s') (c : Category) :
    (s'.collector.ledgers.get c).depth = (s.collector.ledgers.get c).depth ∨
      s.sample = some (c, (s'.collector.ledgers.get c).depth) := by
  cases h with
  | register t => exact .inl (depth_update (Ledger.depth_register _ _ _) c)
  | reserve _ hk =>
    left
    rw [← congrArg (fun p => p.2.ledgers) hk]
    exact depth_update (Ledger.depth_reserve _ _ _) c
  | withdraw _ => exact .inl (depth_update (Ledger.depth_release _ _ _) c)
  | begin _ hk =>
    left
    rw [← congrArg (fun p => p.2.ledgers) hk]
    exact depth_update (Ledger.depth_start _ _ _) c
  | @settle _ job _ _ now duration _ =>
    have hd : ((s.collector.ledgers.get job.category).clear job.id now duration).2.depth =
        (s.collector.ledgers.get job.category).depth := rfl
    exact .inl (depth_update hd c)
  | @recordDepth d depth hs =>
    -- the one change of a depth is to what the sampler holds
    by_cases hcd : c = d
    · subst hcd
      right
      rw [hs]
      have hd := PerCategory.get_update s.collector.ledgers c (·.setDepth depth)
      exact congrArg (fun l : Ledger => some (c, l.depth)) hd.symm
    · exact .inl (congrArg Ledger.depth (PerCategory.get_update_of_ne _ _ hcd))
  | draw hk | enqueue _ hk | idle _ hk | take _ hk | finish _ hk _ =>
    exact .inl (congrArg (fun p => (p.2.ledgers.get c).depth) hk).symm
  | _ => exact .inl rfl

/-- What the sampler holds is a size that the queue had. -/
theorem sample_le (h : RunUnder ok r n past s) {depth : Nat} (hs : s.sample = some (c, depth)) :
    depth ≤ max 1 n := by
  induction h with
  | start => cases hs
  | @step past s s' e h step _ ih =>
    cases step with
    | readDepth d =>
      obtain ⟨rfl, rfl⟩ := Prod.mk.inj (Option.some.inj hs)
      exact (line h d).size_le
    | recordDepth => cases hs
    | _ => exact ih hs

/-- A depth in a ledger is a size that the queue had. -/
theorem depth_le (h : RunUnder ok r n past s) (c : Category) :
    (s.collector.ledgers.get c).depth ≤ max 1 n := by
  induction h with
  | start => cases c <;> exact Nat.zero_le _
  | @step past s s' e h step _ ih =>
    rcases step.depth c with hd | hd
    · rw [hd]; exact ih
    · exact sample_le h hd

/-! ### The hand-over of a category -/

/-- In every run, and for each category: until its worker stops, the jobs that
the queue took in are those settled, then the one at the worker, then those in
the queue, in this order and each of them once; the queue and every depth
recorded of it stay within the capacity; an offer fails where the queue is full
or its consumer gone, and there only; and a job that was refused is in none of
the three places. -/
theorem handed_over_in_order (h : Run r n past s) (c : Category) :
    (s.worker c ≠ .stopped →
      jobs (Act.acceptedIn? c) past =
        jobs (Act.settledIn? c) past ++ (s.worker c).jobs ++ (s.queue c).jobs) ∧
    (jobs (Act.acceptedIn? c) past).Nodup ∧
    (s.queue c).size ≤ max 1 n ∧
    (∀ job : Job, job.category = c →
      ((s.collector.enqueue job).1 = some (.queueFull c (max 1 n)) ↔
        (s.queue c).size = max 1 n) ∧
      ((s.collector.enqueue job).1 = some (.queueClosed c) ↔ s.worker c = .stopped) ∧
      ((s.collector.enqueue job).1 = none ↔
        s.worker c ≠ .stopped ∧ (s.queue c).size < max 1 n)) ∧
    (∀ job ∈ jobs Act.rejected? past,
      job ∉ jobs (Act.settledIn? c) past ++ (s.worker c).jobs ++ (s.queue c).jobs) ∧
    (s.collector.ledgers.get c).depth ≤ max 1 n := by
  have hl := line h c
  -- lost jobs are there only after the worker has stopped
  refine ⟨fun hon => ?_, acceptedIn_nodup h c, hl.size_le, fun job hc => ?_, fun job hj hmem => ?_,
    depth_le h c⟩
  · obtain ⟨lost, horder, hlost⟩ := hl.order
    rw [horder, hlost hon, List.append_nil]
  · have hpos : 1 ≤ max 1 n := Nat.le_max_left 1 n
    rcases hl.enqueue_eq hc with ⟨hst, hs, he⟩ | ⟨hst, hs, he⟩ | ⟨hst, hs, he⟩ <;>
      rw [he] <;> simp [hst] <;> omega
  · have hacc := (acceptedIn_sublist c past).subset (hl.mem_acceptedIn hmem)
    exact accepted_disjoint_rejected h hj hacc

/-- Asked for no room at all, a queue has room for one job: with one job at the
worker and one in the queue, the next one is refused. -/
theorem handed_over_without_room : ∃ past s, Run .standard 0 past s ∧
    jobs (Act.acceptedIn? .filesystem) past =
      (s.worker .filesystem).jobs ++ (s.queue .filesystem).jobs ∧
    (s.worker .filesystem).jobs.length = 1 ∧ (s.queue .filesystem).jobs.length = 1 ∧
    ∀ job : Job, job.category = .filesystem →
      (s.collector.enqueue job).1 = some (.queueFull .filesystem 1) := by
  have h₀ : Run .standard 0 [] _ := .start rfl
  have h₁ := h₀.step (.register _ sampleTarget) trivial
  have h₂ := h₁.step (.register _ { sampleTarget with name := "home" }) trivial
  have h₃ := h₂.handedOver (fun _ _ _ => trivial) sampleTarget 7 rfl
  have h₄ := h₃.step (.ready (c := .filesystem) rfl rfl) trivial
  have h₅ := h₄.step (.take (c := .filesystem) rfl rfl) trivial
  have h₆ := h₅.handedOver (fun _ _ _ => trivial) { sampleTarget with name := "home" } 8 rfl
  refine ⟨_, _, h₆, ?_, rfl, rfl, fun job hc => ?_⟩
  · exact (handed_over_in_order h₆ .filesystem).1 nofun
  · exact ((handed_over_in_order h₆ .filesystem).2.2.2.1 job hc).1.2 rfl

end Engine

end DiskWatch
