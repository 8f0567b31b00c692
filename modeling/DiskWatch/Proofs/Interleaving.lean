/-
DiskWatch/Proofs/Interleaving.lean

The collector among tasks that run at the same time.  Any number of ticks, one
worker for each category, any number of watchdogs and the sampler of queue
depths share one collector.  Each of them is at some point of its own work, and
one step takes one of them one atomic operation further; which one moves is left
open.  The clock may move at any time, and what the outside world answers (a
look at a path, the result of a call, a reading of the clock) is left open too.

A run keeps its history as a list of acts, the latest first.  An act says which
step was taken and with which job, so what has happened to a job can be read off
the history alone.

`Run r n` holds the runs from the empty collector, with queues of capacity `n`.
`RunUnder ok r n` holds the runs all of whose steps were `ok`; this is how
promptness is asked for where it matters.  `Leads` holds what several steps lead
to, from wherever they start; a run goes on by them (`RunUnder.leads`).
-/
import DiskWatch.Alone
import DiskWatch.Watchdog
import Mathlib.Data.Multiset.Filter

namespace DiskWatch

/-! ### Several steps -/

/-- What several steps lead to, with what was done in them, the latest first. -/
inductive Leads {σ α : Type} (step : σ → α → σ → Prop) (s : σ) : List α → σ → Prop
  | refl : Leads step s [] s
  | step {acts : List α} {s' s'' : σ} {e : α} (h : Leads step s acts s') (hs : step s' e s'') :
      Leads step s (e :: acts) s''

namespace Leads

variable {σ α : Type} {step : σ → α → σ → Prop} {s s' s'' : σ} {acts acts' : List α} {e : α}

theorem one (hs : step s e s') : Leads step s [e] s' := .step .refl hs

theorem append (h : Leads step s acts s') (h' : Leads step s' acts' s'') :
    Leads step s (acts' ++ acts) s'' := by
  induction h' with
  | refl => exact h
  | step _ hs ih => exact ih.step hs

/-- What each step does is done by all of them. -/
theorem forall_mem {p : α → Prop} (h : Leads step s acts s')
    (hp : ∀ {s e s'}, step s e s' → p e) : ∀ e ∈ acts, p e := by
  induction h with
  | refl => exact fun _ he => absurd he List.not_mem_nil
  | step _ hs ih =>
    intro e he
    rcases List.mem_cons.1 he with rfl | he
    · exact hp hs
    · exact ih e he

end Leads

/-! ### Where the tasks stand -/

/-- Where a tick stands between two of its steps. -/
inductive TickStage
  | drawn
  | decided (a : Admission)
  | offered (e : Option Error)
  deriving DecidableEq

/-- Whether a tick at this stage is pledged to its job: the job is admitted, and
it has neither been taken in by its queue nor been released. -/
def TickStage.pledged : TickStage → Bool
  | decided .admitted => true
  | offered (some _) => true
  | _ => false

/-- A tick under way. -/
structure Tick where
  job : Job
  stage : TickStage
  deriving DecidableEq

/-- Where a worker stands.  It is `ready` once it has seen that no shutdown was
requested, and it then turns to its queue. -/
inductive WorkerStage
  | free
  | ready
  | holding (job : Job)
  | measuring (job : Job) (span : Nat) (rest : Activity (Except Error Measurement))
  | stopped

namespace WorkerStage

/-- The job that a worker is at, from taking it out of the queue to settling it. -/
def jobs : WorkerStage → List Job
  | holding job => [job]
  | measuring job _ _ => [job]
  | _ => []

/-- The job that a worker measures, and the span of its processing. -/
def site : WorkerStage → Option (Job × Nat)
  | measuring job span _ => some (job, span)
  | _ => none

end WorkerStage

/-- A watchdog, which has no watch before it has begun. -/
structure Sentry where
  job : Job
  watch : Option Watch

/-- The collector and the tasks at work on it. -/
structure Engine where
  now : Instant
  collector : Collector
  ticks : Multiset Tick
  workers : PerCategory WorkerStage
  sentries : Multiset Sentry
  /-- The depth that the sampler has read and not yet recorded. -/
  sample : Option (Category × Nat)

namespace Engine

/-- The engine before anything has happened. -/
def start (queue : Queue) : Engine :=
  ⟨0, .start (.both queue), 0, .both .free, 0, none⟩

/-! ### Acts and steps -/

/-- What is done in one step. -/
inductive Act
  | register (t : Target)
  | draw (job : Job)
  | reserve (job : Job) (a : Admission)
  | skip (job : Job)
  | refuse (job : Job)
  | enqueue (job : Job) (e : Option Error)
  | withdraw (job : Job) (e : Error)
  | dispatch (job : Job)
  | ready (c : Category)
  | idle (c : Category)
  | take (c : Category) (job : Job)
  | begin (c : Category) (job : Job)
  | look (c : Category) (path : Path)
  | call (c : Category) (k : Call)
  | pause (c : Category)
  | note (c : Category) (n : Note)
  | settle (c : Category) (job : Job)
  | stop (c : Category)
  | awake (job : Job) (now : Instant)
  | faint (job : Job)
  | watch (job : Job) (now : Instant)
  | falter (job : Job)
  | close (job : Job) (v : Collector.Verdict) (now : Instant)
  | readDepth (c : Category)
  | recordDepth (c : Category) (depth : Nat)
  | remark (e : Event)
  | countTasks (alive : Nat)
  | shutdown (now : Instant)
  | elapse (t : Instant)

/-- One atomic step of one of the tasks. -/
inductive Step (r : Routine) : Engine → Act → Engine → Prop
  | register (s : Engine) (t : Target) :
      Step r s (.register t) { s with collector := s.collector.register t }
  -- ticks
  | draw {s : Engine} {t : Target} {clock : Int} {job : Job} {k : Collector}
      (hk : s.collector.draw t clock = (job, k)) :
      Step r s (.draw job) { s with collector := k, ticks := ⟨job, .drawn⟩ ::ₘ s.ticks }
  | reserve {s : Engine} {job : Job} {a : Admission} {k : Collector} {ticks : Multiset Tick}
      (ht : s.ticks = ⟨job, .drawn⟩ ::ₘ ticks) (hk : s.collector.reserve job = (a, k)) :
      Step r s (.reserve job a) { s with collector := k, ticks := ⟨job, .decided a⟩ ::ₘ ticks }
  | skip {s : Engine} {job : Job} {ticks : Multiset Tick}
      (ht : s.ticks = ⟨job, .decided .alreadyRunning⟩ ::ₘ ticks) :
      Step r s (.skip job) { s with collector := s.collector.skip job, ticks := ticks }
  | refuse {s : Engine} {job : Job} {ticks : Multiset Tick}
      (ht : s.ticks = ⟨job, .decided .unregistered⟩ ::ₘ ticks) :
      Step r s (.refuse job) { s with collector := s.collector.refuse job, ticks := ticks }
  | enqueue {s : Engine} {job : Job} {e : Option Error} {k : Collector} {ticks : Multiset Tick}
      (ht : s.ticks = ⟨job, .decided .admitted⟩ ::ₘ ticks)
      (hk : s.collector.enqueue job = (e, k)) :
      Step r s (.enqueue job e) { s with collector := k, ticks := ⟨job, .offered e⟩ ::ₘ ticks }
  | withdraw {s : Engine} {job : Job} {e : Error} {ticks : Multiset Tick}
      (ht : s.ticks = ⟨job, .offered (some e)⟩ ::ₘ ticks) :
      Step r s (.withdraw job e) { s with collector := s.collector.withdraw job e, ticks := ticks }
  | dispatch {s : Engine} {job : Job} {ticks : Multiset Tick}
      (ht : s.ticks = ⟨job, .offered none⟩ ::ₘ ticks) :
      Step r s (.dispatch job)
        { s with
          collector := s.collector.dispatch job
          ticks := ticks
          sentries := ⟨job, none⟩ ::ₘ s.sentries }
  -- workers
  | ready {s : Engine} {c : Category} (hw : s.workers.get c = .free)
      (hs : s.collector.shutdown = false) :
      Step r s (.ready c) { s with workers := s.workers.set c .ready }
  | idle {s : Engine} {c : Category} {k : Collector} (hw : s.workers.get c = .ready)
      (hk : s.collector.takeJob c = (.pending, k)) :
      Step r s (.idle c) { s with collector := k, workers := s.workers.set c .free }
  | take {s : Engine} {c : Category} {job : Job} {k : Collector} (hw : s.workers.get c = .ready)
      (hk : s.collector.takeJob c = (.job job, k)) :
      Step r s (.take c job) { s with collector := k, workers := s.workers.set c (.holding job) }
  | begin {s : Engine} {c : Category} {job : Job} {now : Instant} {span : Nat} {k : Collector}
      (hw : s.workers.get c = .holding job) (hk : s.collector.begin job now = (span, k)) :
      Step r s (.begin c job)
        { s with
          collector := k
          workers := s.workers.set c
            (.measuring job span (Measurement.take r.policy job.kind job.timeout)) }
  | look {s : Engine} {c : Category} {job : Job} {span : Nat} {path : Path}
      {next : PathStatus → Activity (Except Error Measurement)}
      (hw : s.workers.get c = .measuring job span (.look path next)) (status : PathStatus) :
      Step r s (.look c path)
        { s with workers := s.workers.set c (.measuring job span (next status)) }
  | call {s : Engine} {c : Category} {job : Job} {span : Nat} {k : Call}
      {next : Except Error String → Activity (Except Error Measurement)}
      (hw : s.workers.get c = .measuring job span (.call k next))
      (answer : Except Error String) :
      Step r s (.call c k)
        { s with workers := s.workers.set c (.measuring job span (next answer)) }
  | pause {s : Engine} {c : Category} {job : Job} {span : Nat} {length : Duration}
      {next : Bool → Activity (Except Error Measurement)} {cut : Bool}
      (hw : s.workers.get c = .measuring job span (.pause length next))
      (hc : cut = true → job.stop.given s.collector.shutdown = true) :
      Step r s (.pause c)
        { s with workers := s.workers.set c (.measuring job span (next cut)) }
  | note {s : Engine} {c : Category} {job : Job} {span : Nat} {n : Note}
      {next : Activity (Except Error Measurement)}
      (hw : s.workers.get c = .measuring job span (.note n next)) :
      Step r s (.note c n)
        { s with
          collector := s.collector.observe fun o => Activity.keep (some span) o n
          workers := s.workers.set c (.measuring job span next) }
  | settle {s : Engine} {c : Category} {job : Job} {span : Nat}
      {result : Except Error Measurement} {now : Instant} {duration : Duration}
      (hw : s.workers.get c = .measuring job span (.done result)) :
      Step r s (.settle c job)
        { s with
          collector := s.collector.settle job span now result duration
          workers := s.workers.set c .free }
  | stop {s : Engine} {c : Category} (hw : s.workers.get c = .free)
      (hs : s.collector.shutdown = true) :
      Step r s (.stop c)
        { s with collector := s.collector.stopWorker c, workers := s.workers.set c .stopped }
  | finish {s : Engine} {c : Category} {d : Delivery} {k : Collector}
      (hw : s.workers.get c = .ready) (hk : s.collector.takeJob c = (d, k))
      (hd : d = .finished ∨ d = .dropped) :
      Step r s (.stop c)
        { s with collector := k.stopWorker c, workers := s.workers.set c .stopped }
  -- watchdogs
  | awake {s : Engine} {job : Job} {w : Watch} {sentries : Multiset Sentry}
      (hs : s.sentries = ⟨job, none⟩ ::ₘ sentries)
      (hw : Watch.begin? r job.timeout s.now = some w) :
      Step r s (.awake job s.now) { s with sentries := ⟨job, some w⟩ ::ₘ sentries }
  | faint {s : Engine} {job : Job} {sentries : Multiset Sentry}
      (hs : s.sentries = ⟨job, none⟩ ::ₘ sentries)
      (hw : Watch.begin? r job.timeout s.now = none) :
      Step r s (.faint job) { s with sentries := sentries }
  | watch {s : Engine} {job : Job} {w : Watch} {due : Instant} {sentries : Multiset Sentry}
      (hs : s.sentries = ⟨job, some w⟩ ::ₘ sentries)
      (hg : w.glance r s.collector job.id s.now = .again due) :
      Step r s (.watch job s.now)
        { s with sentries := ⟨job, some { w with due := due }⟩ ::ₘ sentries }
  | falter {s : Engine} {job : Job} {w : Watch} {sentries : Multiset Sentry}
      (hs : s.sentries = ⟨job, some w⟩ ::ₘ sentries)
      (hg : w.glance r s.collector job.id s.now = .fail) :
      Step r s (.falter job) { s with sentries := sentries }
  | close {s : Engine} {job : Job} {w : Watch} {v : Collector.Verdict}
      {sentries : Multiset Sentry}
      (hs : s.sentries = ⟨job, some w⟩ ::ₘ sentries)
      (hg : w.glance r s.collector job.id s.now = .close v) :
      Step r s (.close job v s.now)
        { s with
          collector := s.collector.closeWatch job.id job.cycle v (Clock.since w.began s.now)
          sentries := sentries }
  -- samplers, and what else is told to the observers
  | readDepth {s : Engine} (c : Category) (hs : s.sample = none) :
      Step r s (.readDepth c) { s with sample := some (c, (s.collector.queues.get c).size) }
  | recordDepth {s : Engine} {c : Category} {depth : Nat} (hs : s.sample = some (c, depth)) :
      Step r s (.recordDepth c depth)
        { s with collector := s.collector.recordDepth c depth, sample := none }
  | remark (s : Engine) (e : Event) : Step r s (.remark e) { s with collector := s.collector.log e }
  | countTasks (s : Engine) (alive : Nat) :
      Step r s (.countTasks alive) { s with collector := s.collector.sampleTasks alive }
  -- the outside
  | shutdown (s : Engine) :
      Step r s (.shutdown s.now) { s with collector := s.collector.requestShutdown }
  | elapse {s : Engine} {t : Instant} (ht : s.now ≤ t) : Step r s (.elapse t) { s with now := t }

/-! ### Runs -/

/-- A run all of whose steps were `ok`, with its history. -/
inductive RunUnder (ok : Engine → Act → Prop) (r : Routine) (n : Nat) :
    List Act → Engine → Prop
  | start {queue : Queue} (hq : Queue.build? n = some queue) : RunUnder ok r n [] (.start queue)
  | step {past : List Act} {s s' : Engine} {e : Act} (h : RunUnder ok r n past s)
      (hs : Step r s e s') (hok : ok s e) : RunUnder ok r n (e :: past) s'

/-- Any run. -/
abbrev Run (r : Routine) (n : Nat) : List Act → Engine → Prop := RunUnder (fun _ _ => True) r n

variable {ok : Engine → Act → Prop} {r : Routine} {n : Nat} {past : List Act} {s s' : Engine}
  {e : Act}

theorem RunUnder.run (h : RunUnder ok r n past s) : Run r n past s := by
  induction h with
  | start hq => exact .start hq
  | step _ hs _ ih => exact .step ih hs trivial

/-- A run goes on by several steps. -/
theorem RunUnder.leads {acts : List Act} (h : RunUnder ok r n past s)
    (hl : Leads (Step r) s acts s') (hok : ∀ e ∈ acts, ∀ s, ok s e) :
    RunUnder ok r n (acts ++ past) s' := by
  induction hl with
  | refl => exact h
  | step _ hs ih =>
    have hbefore := ih fun e he => hok e (List.mem_cons_of_mem _ he)
    exact hbefore.step hs (hok _ List.mem_cons_self _)

/-- What a tick goes through that ends with its job in the queue. -/
theorem tick_enqueued {k k' : Collector} {t : Target} {clock : Int} {job : Job}
    (h : k.tick t clock = (.enqueued job, k')) : ∃ k₁ k₂ k₃,
      k.draw t clock = (job, k₁) ∧ k₁.reserve job = (.admitted, k₂) ∧
        k₂.enqueue job = (none, k₃) ∧ k' = k₃.dispatch job := by
  unfold Collector.tick at h
  rcases hd : k.draw t clock with ⟨drawn, k₁⟩
  rcases hr : k₁.reserve drawn with ⟨a, k₂⟩
  simp only [hd, hr] at h
  cases a with
  | unregistered | alreadyRunning => cases h
  | admitted =>
    rcases he : k₂.enqueue drawn with ⟨e, k₃⟩
    simp only [he] at h
    cases e with
    | some e => cases h
    | none =>
      cases h
      exact ⟨k₁, k₂, k₃, rfl, hr, he, rfl⟩

/-- A tick that nobody interrupts, and that ends with its job in the queue, is
four steps. -/
theorem leads_of_enqueued {t : Target} {clock : Int} {job : Job} {k : Collector}
    (ht : s.collector.tick t clock = (.enqueued job, k)) :
    Leads (Step r) s
      [.dispatch job, .enqueue job none, .reserve job .admitted, .draw job]
      { s with collector := k, sentries := ⟨job, none⟩ ::ₘ s.sentries } := by
  obtain ⟨k₁, k₂, k₃, hd, hr, he, rfl⟩ := tick_enqueued ht
  -- the four steps leave behind the ticks that were there before
  have h₁ : Leads (Step r) s _ _ := .one (.draw hd)
  have h₂ := h₁.step (.reserve rfl hr)
  have h₃ := h₂.step (.enqueue rfl he)
  exact h₃.step (.dispatch rfl)

/-- A run goes on by such a tick. -/
theorem RunUnder.handedOver (hok : ∀ s e, (∀ t, e ≠ .elapse t) → ok s e)
    (h : RunUnder ok r n past s) (t : Target) (clock : Int) {job : Job} {k : Collector}
    (ht : s.collector.tick t clock = (.enqueued job, k)) :
    RunUnder ok r n
      (.dispatch job :: .enqueue job none :: .reserve job .admitted :: .draw job :: past)
      { s with collector := k, sentries := ⟨job, none⟩ ::ₘ s.sentries } := by
  refine h.leads (leads_of_enqueued ht) fun e he s => hok s e ?_
  rintro t rfl
  simp at he

/-- A target for runs on the page: the file system of the root. -/
def sampleTarget : Target := ⟨"root", .filesystem ⟨⟨"/"⟩, "disk"⟩, .ofSecs 60, .ofSecs 10⟩

/-! ### What has happened to a job -/

/-- The jobs of the acts of one kind, in the order in which they came up. -/
def jobs (f : Act → Option Job) (past : List Act) : List Job := (past.filterMap f).reverse

@[simp] theorem jobs_nil (f : Act → Option Job) : jobs f [] = [] := rfl

theorem jobs_cons (f : Act → Option Job) (e : Act) (past : List Act) :
    jobs f (e :: past) = jobs f past ++ (f e).toList := by
  cases h : f e <;> simp [jobs, h]

theorem mem_jobs {f : Act → Option Job} {job : Job} :
    job ∈ jobs f past ↔ ∃ e ∈ past, f e = some job := by
  simp [jobs]

theorem mem_jobs_cons {f : Act → Option Job} {job : Job} :
    job ∈ jobs f (e :: past) ↔ job ∈ jobs f past ∨ f e = some job := by
  rw [jobs_cons, List.mem_append, Option.mem_toList]

/-- Where no job comes up twice, one that comes up now has not come up before. -/
theorem notMem_of_nodup {f : Act → Option Job} {job : Job} (hn : (jobs f (e :: past)).Nodup)
    (he : f e = some job) : job ∉ jobs f past := by
  rw [jobs_cons, he, Option.toList_some, List.nodup_append'] at hn
  intro hmem
  exact hn.2.2 hmem (List.mem_singleton_self job)

end Engine

end DiskWatch
