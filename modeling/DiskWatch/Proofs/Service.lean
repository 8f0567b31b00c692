/-
DiskWatch/Proofs/Service.lean

The daemon from its start to its return, as one more party among the tasks.  It
registers the targets, starts a task for each of them and two that take samples,
waits for the shutdown, then for all of these tasks and for the workers, and
returns.  It never waits for a watchdog.

A task that goes from beat to beat, a `Loop`, waits for its next beat or for the
shutdown.  At a beat it does its duty, in steps of the engine that may come
between any steps of the others.  Everything else is as open as in any run of
the engine: workers, watchdogs, the moment of the shutdown and what the outside
world answers.  What the daemon tells its observers is left to remarks.

Main results: the engine of the daemon makes a run of its own (`Run.engine`),
its ticks are those of the loops at work (`Run.ticks`), and once the daemon has
returned all that it waits for has ended and stays so (`Run.returned`).  A duty that
nobody interrupts is a few steps, from one beat to the next (`leads_of_duty`).
-/
import DiskWatch.Proofs.CriticalSection
import DiskWatch.Proofs.Verdict
import DiskWatch.Config.Basic

namespace DiskWatch

/-! ### Loops -/

/-- What a task does at its beats. -/
inductive Duty
  | tick (t : Target)
  | sampleDepths
  | countTasks
  deriving DecidableEq

/-- Where a task stands that goes from beat to beat. -/
inductive LoopStage
  | waiting
  /-- It does its duty; a tick has a job once one is drawn. -/
  | busy (job : Option Job)
  | over
  deriving DecidableEq

/-- A task that goes from beat to beat. -/
structure Loop where
  duty : Duty
  stage : LoopStage
  deriving DecidableEq

/-- The job whose tick is under way. -/
def Loop.job? (l : Loop) : Option Job :=
  match l.stage with
  | .busy job => job
  | _ => none

/-- What a loop at work does in one step of the engine, and where it stands then. -/
inductive Loop.Deed : Loop → Engine.Act → LoopStage → Prop
  | draw (t : Target) (job : Job) (hj : job = .ofTarget t job.id job.cycle .shutdown) :
      Deed ⟨.tick t, .busy none⟩ (.draw job) (.busy (some job))
  | goOn (t : Target) (job : Job) (e : Engine.Act) (source target : TickStage)
      (he : e.passage? = some ⟨job, some source, some target⟩) :
      Deed ⟨.tick t, .busy (some job)⟩ e (.busy (some job))
  | finish (t : Target) (job : Job) (e : Engine.Act) (source : TickStage)
      (he : e.passage? = some ⟨job, some source, none⟩) :
      Deed ⟨.tick t, .busy (some job)⟩ e .waiting
  | readDepth (c : Category) : Deed ⟨.sampleDepths, .busy none⟩ (.readDepth c) (.busy none)
  | recordDepth (c : Category) (depth : Nat) (stage : LoopStage)
      (hs : stage = .busy none ∨ stage = .waiting) :
      Deed ⟨.sampleDepths, .busy none⟩ (.recordDepth c depth) stage
  | countTasks (alive : Nat) : Deed ⟨.countTasks, .busy none⟩ (.countTasks alive) .waiting

theorem Loop.Deed.busy {l : Loop} {e : Engine.Act} {stage : LoopStage} (h : l.Deed e stage) :
    ∃ job, l.stage = .busy job := by
  cases h <;> exact ⟨_, rfl⟩

/-- What a loop does from one stage to another one, the latest first. -/
abbrev Duty.Leads (d : Duty) : LoopStage → List Engine.Act → LoopStage → Prop :=
  DiskWatch.Leads fun stage e stage' => Loop.Deed ⟨d, stage⟩ e stage'

/-- These acts are the whole of a duty. -/
abbrev Duty.Done (d : Duty) (acts : List Engine.Act) : Prop := d.Leads (.busy none) acts .waiting

/-! ### Duties that nobody interrupts -/

namespace Engine

variable {r : Routine} {s : Engine} {t : Target} {clock : Int} {k : Collector}

theorem eq_ofTarget_of_draw {k₀ : Collector} {job : Job} (hd : k₀.draw t clock = (job, k)) :
    job = .ofTarget t job.id job.cycle .shutdown := by
  cases hd
  rfl

theorem done_of_enqueued {job : Job} (ht : s.collector.tick t clock = (.enqueued job, k)) :
    (Duty.tick t).Done
      [.dispatch job, .enqueue job none, .reserve job .admitted, .draw job] := by
  obtain ⟨k₁, k₂, k₃, hd, -, -, -⟩ := tick_enqueued ht
  have h₁ : (Duty.tick t).Leads (.busy none) _ _ := .one (.draw t job (eq_ofTarget_of_draw hd))
  have h₂ := h₁.step (.goOn t job (.reserve job .admitted) _ _ rfl)
  have h₃ := h₂.step (.goOn t job (.enqueue job none) _ _ rfl)
  exact h₃.step (.finish t job (.dispatch job) _ rfl)

/-- A watchdog is posted for a job that a tick has put into its queue. -/
def posted (outcome : Collector.TickOutcome) (sentries : Multiset Sentry) : Multiset Sentry :=
  match outcome with
  | .enqueued job => ⟨job, none⟩ ::ₘ sentries
  | _ => sentries

/-- However a tick ends, it is a few steps of the engine and the whole duty of a timer. -/
theorem leads_of_tick {outcome : Collector.TickOutcome}
    (ht : s.collector.tick t clock = (outcome, k)) : ∃ acts, (Duty.tick t).Done acts ∧
      Leads (Step r) s acts { s with collector := k, sentries := posted outcome s.sentries } := by
  have htick := ht
  unfold Collector.tick at ht
  rcases hd : s.collector.draw t clock with ⟨drawn, k₁⟩
  rcases hr : k₁.reserve drawn with ⟨a, k₂⟩
  simp only [hd, hr] at ht
  have h₁ : Leads (Step r) s _ _ := .one (.draw hd)
  have h₂ := h₁.step (.reserve rfl hr)
  have hd₁ : (Duty.tick t).Leads (.busy none) _ _ :=
    .one (.draw t drawn (eq_ofTarget_of_draw hd))
  have hd₂ := hd₁.step (.goOn t drawn (.reserve drawn a) _ _ rfl)
  cases a with
  | unregistered =>
    cases ht
    exact ⟨_, hd₂.step (.finish t drawn (.refuse drawn) _ rfl), h₂.step (.refuse rfl)⟩
  | alreadyRunning =>
    cases ht
    exact ⟨_, hd₂.step (.finish t drawn (.skip drawn) _ rfl), h₂.step (.skip rfl)⟩
  | admitted =>
    rcases he : k₂.enqueue drawn with ⟨e, k₃⟩
    simp only [he] at ht
    cases e with
    | none =>
      cases ht
      exact ⟨_, done_of_enqueued htick, leads_of_enqueued htick⟩
    | some e =>
      cases ht
      have hd₃ := hd₂.step (.goOn t drawn (.enqueue drawn (some e)) _ _ rfl)
      have h₃ := h₂.step (.enqueue rfl he)
      exact ⟨_, hd₃.step (.finish t drawn (.withdraw drawn e) _ rfl), h₃.step (.withdraw rfl)⟩

theorem done_of_depths (depth : Category → Nat) : Duty.sampleDepths.Done
    [.recordDepth .directory (depth .directory), .readDepth .directory,
      .recordDepth .filesystem (depth .filesystem), .readDepth .filesystem] := by
  have h₁ : Duty.sampleDepths.Leads (.busy none) _ _ := .one (.readDepth .filesystem)
  have h₂ := h₁.step (.recordDepth .filesystem (depth .filesystem) _ (.inl rfl))
  have h₃ := h₂.step (.readDepth .directory)
  exact h₃.step (.recordDepth .directory (depth .directory) _ (.inr rfl))

/-- The depth of one queue is read and then recorded. -/
theorem leads_of_depth (hs : s.sample = none) (c : Category) :
    Leads (Step r) s
      [.recordDepth c (s.collector.queues.get c).size, .readDepth c]
      { s with collector := s.collector.recordDepth c (s.collector.queues.get c).size } := by
  have h₁ : Leads (Step r) s _ _ := .one (.readDepth c hs)
  have h₂ := h₁.step (.recordDepth rfl)
  dsimp only at h₂
  rw [← hs] at h₂
  exact h₂

/-- The sampler of depths looks at the queues one after the other. -/
theorem leads_of_sampleDepths (hs : s.sample = none) : ∃ acts, Duty.sampleDepths.Done acts ∧
    Leads (Step r) s acts { s with collector := s.collector.sampleDepths } := by
  refine ⟨_, done_of_depths fun c => (s.collector.queues.get c).size, ?_⟩
  refine (leads_of_depth hs .filesystem).append (leads_of_depth ?_ .directory)
  exact hs

end Engine

/-! ### The daemon -/

/-- What the daemon does before it waits for the shutdown. -/
inductive Chore
  | register (t : Target)
  | spawn (d : Duty)
  deriving DecidableEq

/-- Every target is registered before the first timer starts. -/
def Config.chores (config : Config) : List Chore :=
  config.targets.map .register ++ config.targets.map (.spawn <| .tick ·) ++
    [.spawn .sampleDepths, .spawn .countTasks]

/-- The daemon, with all that it has started. -/
structure Service where
  engine : Engine
  /-- What is left to do before it waits for the shutdown. -/
  chores : List Chore
  loops : List Loop
  /-- What it has returned. -/
  result : Option (Except Error Unit)

/-- An act that is not the daemon's and that no loop does: one of a worker, of a
watchdog or of the outside. -/
def Engine.Act.own : Engine.Act → Bool
  | register _ | draw _ | reserve _ _ | skip _ | refuse _ | enqueue _ _ | withdraw _ _
  | dispatch _ | readDepth _ | recordDepth _ _ | countTasks _ => false
  | _ => true

theorem Engine.Act.passage?_of_own {e : Engine.Act} (h : e.own = true) : e.passage? = none := by
  cases e <;> first | rfl | cases h

/-- A step of a worker or a watchdog, or a remark: no time passes. -/
structure Engine.OwnStep (r : Routine) (s : Engine) (e : Engine.Act) (s' : Engine) : Prop where
  step : Engine.Step r s e s'
  own : e.own = true
  still : ∀ t, e ≠ .elapse t

namespace Service

/-- The daemon with its workers, before anything has happened. -/
def start (config : Config) (queue : Queue) : Service := ⟨.start queue, config.chores, [], none⟩

/-- All that the daemon waits for has ended. -/
structure Finished (s : Service) : Prop where
  chores : s.chores = []
  shutdown : s.engine.collector.shutdown = true
  workers : ∀ c, s.engine.worker c = .stopped
  loops : ∀ l ∈ s.loops, l.stage = .over

/-- What is done in one step. -/
inductive Act
  | register (t : Target)
  | spawn (d : Duty)
  | own (e : Engine.Act)
  /-- The task of this number turns to its duty. -/
  | wake (i : Nat)
  | deed (i : Nat) (e : Engine.Act)
  /-- The task of this number has seen that a shutdown was requested. -/
  | stop (i : Nat)
  /-- The task of this number ends abnormally. -/
  | fail (i : Nat)
  | conclude

/-- One step of the daemon or of one of the tasks. -/
inductive Step (r : Routine) : Service → Act → Service → Prop
  | register {s : Service} {t : Target} {chores : List Chore} {k : Engine}
      (hc : s.chores = .register t :: chores) (hs : Engine.Step r s.engine (.register t) k) :
      Step r s (.register t) { s with engine := k, chores := chores }
  | spawn {s : Service} {d : Duty} {chores : List Chore} (hc : s.chores = .spawn d :: chores) :
      Step r s (.spawn d) { s with chores := chores, loops := s.loops ++ [⟨d, .waiting⟩] }
  | own {s : Service} {e : Engine.Act} {k : Engine} (he : e.own = true)
      (hs : Engine.Step r s.engine e k) : Step r s (.own e) { s with engine := k }
  | wake {s : Service} {i : Nat} {d : Duty} (hl : s.loops[i]? = some ⟨d, .waiting⟩)
      (hs : s.engine.collector.shutdown = false) :
      Step r s (.wake i) { s with loops := s.loops.set i ⟨d, .busy none⟩ }
  | deed {s : Service} {i : Nat} {l : Loop} {e : Engine.Act} {stage : LoopStage} {k : Engine}
      (hl : s.loops[i]? = some l) (hd : l.Deed e stage) (hs : Engine.Step r s.engine e k) :
      Step r s (.deed i e) { s with engine := k, loops := s.loops.set i ⟨l.duty, stage⟩ }
  | stop {s : Service} {i : Nat} {d : Duty} (hl : s.loops[i]? = some ⟨d, .waiting⟩)
      (hs : s.engine.collector.shutdown = true) :
      Step r s (.stop i) { s with loops := s.loops.set i ⟨d, .over⟩ }
  | fail {s : Service} {i : Nat} {d : Duty} (hl : s.loops[i]? = some ⟨d, .waiting⟩) :
      Step r s (.fail i) { s with loops := s.loops.set i ⟨d, .over⟩ }
  | conclude {s : Service} (hr : s.result = none) (hf : s.Finished) :
      Step r s .conclude { s with result := some (.ok ()) }

/-- A run of the daemon, with its history, the latest first. -/
inductive Run (r : Routine) (config : Config) : List Act → Service → Prop
  | start {queue : Queue} (hq : Queue.build? config.queueCapacity.toNat = some queue) :
      Run r config [] (.start config queue)
  | step {past : List Act} {s s' : Service} {e : Act} (h : Run r config past s)
      (hs : Step r s e s') : Run r config (e :: past) s'

/-- The step of the engine that an act is. -/
def Act.engine? : Act → Option Engine.Act
  | register t => some (.register t)
  | own e => some e
  | deed _ e => some e
  | _ => none

/-- The history of the engine. -/
def engineActs (past : List Act) : List Engine.Act := past.filterMap Act.engine?

variable {r : Routine} {config : Config} {past later before : List Act} {s s' : Service} {e : Act}
  {c : Category} {i : Nat}

/-! ### The engine of the daemon -/

/-- A step is one of the engine, or it leaves the engine alone. -/
theorem Step.engine (h : Step r s e s') :
    (e.engine? = none ∧ s'.engine = s.engine) ∨
      ∃ a, e.engine? = some a ∧ Engine.Step r s.engine a s'.engine := by
  cases h with
  | register _ hs => exact .inr ⟨_, rfl, hs⟩
  | own _ hs => exact .inr ⟨_, rfl, hs⟩
  | deed _ _ hs => exact .inr ⟨_, rfl, hs⟩
  | _ => exact .inl ⟨rfl, rfl⟩

/-- A step makes the run of the engine go on, or leaves it alone. -/
theorem Step.engineRun {ok : Engine → Engine.Act → Prop} {n : Nat} (hs : Step r s e s')
    (h : Engine.RunUnder ok r n (engineActs past) s.engine)
    (hok : ∀ a, e.engine? = some a → ok s.engine a) :
    Engine.RunUnder ok r n (engineActs (e :: past)) s'.engine := by
  unfold engineActs
  rw [List.filterMap_cons]
  rcases hs.engine with ⟨he, hsame⟩ | ⟨a, ha, hstep⟩
  · rw [he, hsame]
    exact h
  · rw [ha]
    exact h.step hstep (hok a ha)

/-- The engine of the daemon makes a run of its own. -/
theorem Run.engine (h : Run r config past s) :
    Engine.Run r config.queueCapacity.toNat (engineActs past) s.engine := by
  induction h with
  | start hq => exact .start hq
  | step _ hs ih => exact hs.engineRun ih fun _ _ => trivial

/-! ### Several steps -/

variable {d : Duty} {stage stage' : LoopStage} {acts : List Engine.Act} {k : Engine}

/-- A run goes on by several steps. -/
theorem Run.leads {later : List Act} (h : Run r config past s) (hl : Leads (Step r) s later s') :
    Run r config (later ++ past) s' := by
  induction hl with
  | refl => exact h
  | step _ hs ih => exact ih.step hs

/-- No time passes in these acts. -/
def Calm (acts : List Act) : Prop := ∀ e ∈ acts, ∀ t, e ≠ .own (.elapse t)

theorem calm_nil : Calm [] := fun _ he => absurd he List.not_mem_nil

theorem calm_one (he : ∀ t, e ≠ .own (.elapse t)) : Calm [e] := fun _ he' =>
  List.mem_singleton.1 he' ▸ he

/-- What is neither the daemon's nor a loop's may come at any time. -/
theorem leads_of_own (h : Leads (Engine.OwnStep r) s.engine acts k) :
    Leads (Step r) s (acts.map .own) { s with engine := k } := by
  induction h with
  | refl => exact .refl
  | step _ hs ih => exact ih.step (.own hs.own hs.step)

/-- What a loop does from one stage to another one. -/
theorem leads_of_deeds (hl : s.loops[i]? = some ⟨d, stage⟩) (hd : d.Leads stage acts stage')
    (hk : Leads (Engine.Step r) s.engine acts k) : Leads (Step r) s (acts.map (.deed i))
      { s with engine := k, loops := s.loops.set i ⟨d, stage'⟩ } := by
  obtain ⟨hi, hget⟩ := List.getElem?_eq_some_iff.1 hl
  induction hd generalizing k with
  | refl =>
    cases hk
    rw [← hget, List.set_getElem_self hi]
    exact .refl
  | step _ hdeed ih =>
    cases hk with
    | step hk hs =>
      have hstep := (ih hk).step (.deed (List.getElem?_set_self hi) hdeed hs)
      rw [List.set_set] at hstep
      exact hstep

/-- A loop does its duty, from one beat to the next. -/
theorem leads_of_duty (hl : s.loops[i]? = some ⟨d, .waiting⟩)
    (hf : s.engine.collector.shutdown = false) (hd : d.Done acts)
    (hk : Leads (Engine.Step r) s.engine acts k) :
    Leads (Step r) s (acts.map (.deed i) ++ [.wake i]) { s with engine := k } := by
  obtain ⟨hi, hget⟩ := List.getElem?_eq_some_iff.1 hl
  have hwake : Leads (Step r) s _ _ := .one (.wake hl hf)
  have hduty := hwake.append (leads_of_deeds (List.getElem?_set_self hi) hd hk)
  -- the loop waits again, as before
  rw [List.set_set, ← hget, List.set_getElem_self hi] at hduty
  exact hduty

/-! ### Ticks and loops -/

/-- The jobs whose ticks are under way. -/
def ticking (s : Service) : Multiset Job := s.loops.filterMap Loop.job?

theorem filterMap_set {β : Type} (f : Loop → Option β) {loops : List Loop} {l : Loop} (l' : Loop)
    (hl : loops[i]? = some l) :
    ((loops.set i l').filterMap f : Multiset β) + (f l).toList =
      loops.filterMap f + (f l').toList := by
  induction loops generalizing i with
  | nil => cases hl
  | cons x loops ih =>
    -- in front of the other loops there is one more, with something to see or without
    have hcons : ∀ (y : Loop) (ys : List Loop), ((y :: ys).filterMap f : Multiset β) =
        (f y).toList + ys.filterMap f := by
      intro y ys
      rw [List.filterMap_cons]
      cases f y <;> rfl
    cases i with
    | zero =>
      obtain rfl : x = l := Option.some.inj hl
      rw [List.set_cons_zero, hcons, hcons]
      abel
    | succ i =>
      rw [List.set_cons_succ, hcons, hcons, add_assoc, ih hl, add_assoc]

theorem map_job_tickAt (job : Job) (stage : Option TickStage) :
    (Engine.tickAt job stage).map Tick.job = (stage.map fun _ => job).toList := by
  cases stage <;> rfl

/-- A deed changes the ticks of the engine as it changes the loop. -/
theorem ticks_of_deed {l : Loop} {a : Engine.Act} {stage : LoopStage} {k k' : Engine}
    (hd : l.Deed a stage) (hs : Engine.Step r k a k') :
    k'.ticks.map Tick.job + l.job?.toList =
      k.ticks.map Tick.job + (Loop.job? ⟨l.duty, stage⟩).toList := by
  have hmove : ∀ {m : Engine.Passage}, a.passage? = some m →
      k'.ticks.map Tick.job + (m.source.map fun _ => m.job).toList =
        k.ticks.map Tick.job + (m.target.map fun _ => m.job).toList := by
    intro m hm
    obtain ⟨others, ht, ht'⟩ := hs.ticks hm
    rw [ht, ht', Multiset.map_add, Multiset.map_add, map_job_tickAt, map_job_tickAt]
    abel
  cases hd with
  | draw t job hj => exact hmove rfl
  | goOn t job e source target he => exact hmove he
  | finish t job e source he => exact hmove he
  | readDepth c => rw [hs.ticks_of_none rfl]
  | recordDepth c depth stage hstage =>
    rw [hs.ticks_of_none rfl]
    rcases hstage with rfl | rfl <;> rfl
  | countTasks alive => rw [hs.ticks_of_none rfl]; rfl

/-- The ticks that are under way are those of the loops at work. -/
theorem Run.ticks (h : Run r config past s) : s.engine.ticks.map Tick.job = s.ticking := by
  induction h with
  | start => rfl
  | @step past s s' e _ hs ih =>
    -- a loop without a tick that goes on without one
    have hkeep : ∀ {i : Nat} {l l' : Loop}, s.loops[i]? = some l → l.job? = none → l'.job? = none →
        ((s.loops.set i l').filterMap Loop.job? : Multiset Job) = s.ticking := by
      intro i l l' hl hj hj'
      have hset := filterMap_set Loop.job? l' hl
      rw [hj, hj'] at hset
      exact add_right_cancel hset
    cases hs with
    | register _ hs => rw [hs.ticks_of_none rfl]; exact ih
    | @spawn d chores _ =>
      show _ = ((s.loops ++ [Loop.mk d .waiting]).filterMap Loop.job? : Multiset Job)
      rw [List.filterMap_append, ← Multiset.coe_add]
      exact ih.trans (add_zero _).symm
    | own he hs => rw [hs.ticks_of_none (Engine.Act.passage?_of_own he)]; exact ih
    | wake hl _ => exact ih.trans (hkeep hl rfl rfl).symm
    | @deed i l a stage k hl hd hs =>
      have htick := ticks_of_deed hd hs
      have hset := filterMap_set Loop.job? ⟨l.duty, stage⟩ hl
      rw [ih, ticking, ← hset] at htick
      exact add_right_cancel htick
    | stop hl _ => exact ih.trans (hkeep hl rfl rfl).symm
    | fail hl => exact ih.trans (hkeep hl rfl rfl).symm
    | conclude => exact ih

/-! ### What has ended stays so -/

theorem stopped_of_step {k k' : Engine} {a : Engine.Act} (hs : Engine.Step r k a k')
    (h : k.worker c = .stopped) : k'.worker c = .stopped := by
  cases hs.line c with
  | still _ _ hsame => exact hsame.2 h
  | accept _ _ _ _ _ _ hsame => rw [hsame, h]
  | take _ _ _ _ _ hw => cases hw.symm.trans h
  | settle _ _ _ hw =>
    rw [h] at hw
    cases hw
  | stop _ _ _ hw => exact hw

theorem shutdown_of_step {k k' : Engine} {a : Engine.Act} (hs : Engine.Step r k a k')
    (h : k.collector.shutdown = true) : k'.collector.shutdown = true := by
  by_cases ha : ∃ t, a = .shutdown t
  · obtain ⟨t, rfl⟩ := ha
    exact hs.shutdown_now.2
  · rw [hs.shutdown_eq fun t ht => ha ⟨t, ht⟩]
    exact h

/-- A step keeps the engine as it is, or makes it go on. -/
theorem Step.keeps {P : Engine → Prop} (h : Step r s e s')
    (hP : ∀ {k k' : Engine} {a : Engine.Act}, Engine.Step r k a k' → P k → P k')
    (hs : P s.engine) : P s'.engine := by
  rcases h.engine with ⟨-, hsame⟩ | ⟨a, -, hstep⟩
  · rw [hsame]
    exact hs
  · exact hP hstep hs

/-- A loop that is over stays where it is. -/
theorem Step.over (h : Step r s e s') {d : Duty} (hl : s.loops[i]? = some ⟨d, .over⟩) :
    s'.loops[i]? = some ⟨d, .over⟩ := by
  -- the loop that goes on is another one
  have hset : ∀ {j : Nat} {l l' : Loop}, s.loops[j]? = some l → l.stage ≠ .over →
      (s.loops.set j l')[i]? = some ⟨d, .over⟩ := by
    intro j l l' hj hover
    have hne : j ≠ i := by
      rintro rfl
      rw [hl] at hj
      cases hj
      exact hover rfl
    rw [List.getElem?_set_ne hne]
    exact hl
  cases h with
  | spawn _ =>
    have hi : i < s.loops.length := (List.getElem?_eq_some_iff.1 hl).1
    show (s.loops ++ [_])[i]? = _
    rw [List.getElem?_append_left hi]
    exact hl
  | wake hj _ => exact hset hj nofun
  | deed hj hd _ =>
    obtain ⟨job, hbusy⟩ := hd.busy
    exact hset hj (by rw [hbusy]; nofun)
  | stop hj _ => exact hset hj nofun
  | fail hj => exact hset hj nofun
  | _ => exact hl

/-- What is true from the return of the daemon on. -/
structure Returned (s : Service) : Prop extends Finished s where
  result : s.result = some (.ok ())

theorem Step.returned (h : Step r s e s') (hs : s.Returned) : s'.Returned := by
  have hover : ∀ {j : Nat} {l : Loop}, s.loops[j]? = some l → l.stage = .over :=
    fun hj => hs.loops _ (List.mem_of_getElem? hj)
  have hshutdown := h.keeps shutdown_of_step hs.shutdown
  have hworkers : ∀ c, s'.engine.worker c = .stopped :=
    fun c => h.keeps (P := fun k => k.worker c = .stopped) stopped_of_step (hs.workers c)
  cases h with
  | register hc _ | spawn hc => cases hs.chores.symm.trans hc
  | own _ _ => exact ⟨⟨hs.chores, hshutdown, hworkers, hs.loops⟩, hs.result⟩
  | wake hl _ | stop hl _ | fail hl => cases hover hl
  | deed hl hd _ =>
    obtain ⟨job, hbusy⟩ := hd.busy
    cases hbusy.symm.trans (hover hl)
  | conclude hr _ => cases hs.result.symm.trans hr

/-- Once the daemon has returned, all that it waited for has ended. -/
theorem Run.returned (h : Run r config past s) (hr : s.result.isSome) : s.Returned := by
  induction h with
  | start => cases hr
  | @step past s s' e _ hs ih =>
    by_cases hbefore : s.result.isSome
    · exact hs.returned (ih hbefore)
    · cases hs with
      | conclude _ hf => exact ⟨⟨hf.chores, hf.shutdown, hf.workers, hf.loops⟩, rfl⟩
      | _ => exact absurd hr hbefore

/-- No tick is under way any more. -/
theorem Returned.ticks (hs : s.Returned) (h : Run r config past s) : s.engine.ticks = 0 := by
  have hnone : s.loops.filterMap Loop.job? = [] := by
    rw [List.filterMap_eq_nil_iff]
    intro l hl
    unfold Loop.job?
    rw [hs.loops l hl]
  rw [← Multiset.map_eq_zero (f := Tick.job), h.ticks, ticking, hnone]
  rfl

/-- A worker that takes a job out has not stopped. -/
theorem not_stopped_of_take {k k' : Engine} {a : Engine.Act} {job : Job}
    (hs : Engine.Step r k a k') (ha : a.takenIn? c = some job) : k.worker c ≠ .stopped := by
  intro hstopped
  cases hs with
  | @take d job' _ hw _ =>
    by_cases hd : d = c
    · subst hd
      cases hw.symm.trans hstopped
    · rw [Engine.Act.takenIn?, if_neg hd] at ha
      cases ha
  | _ => cases ha

/-- A worker that has stopped takes nothing out of its queue. -/
theorem Run.after_worker (h : Run r config (later ++ .own (.stop c) :: before) s) :
    s.engine.worker c = .stopped ∧
      Engine.jobs (Engine.Act.takenIn? c) (engineActs later) = [] := by
  induction later generalizing s with
  | nil =>
    refine ⟨?_, rfl⟩
    cases h with
    | step _ hs =>
      cases hs with
      | own _ hs =>
        cases hs with
        | stop _ _ => exact PerCategory.get_set _ _ _
        | finish _ _ _ => exact PerCategory.get_set _ _ _
  | cons e later ih =>
    cases h with
    | step h hs =>
      obtain ⟨hstopped, hnone⟩ := ih h
      refine ⟨hs.keeps (P := fun k => k.worker c = .stopped) stopped_of_step hstopped, ?_⟩
      unfold engineActs at hnone ⊢
      rw [List.filterMap_cons]
      rcases hs.engine with ⟨he, -⟩ | ⟨a, ha, hstep⟩
      · rw [he]
        exact hnone
      · have htake : a.takenIn? c = none :=
          Option.eq_none_iff_forall_ne_some.2 fun job hj => not_stopped_of_take hstep hj hstopped
        rw [ha, Engine.jobs_cons, hnone, htake]
        rfl

/-- A task that has seen the shutdown does nothing any more. -/
theorem Run.after_stop (h : Run r config (later ++ .stop i :: before) s) :
    (∃ d, s.loops[i]? = some ⟨d, .over⟩) ∧ .wake i ∉ later ∧ ∀ a, .deed i a ∉ later := by
  induction later generalizing s with
  | nil =>
    refine ⟨?_, List.not_mem_nil, fun _ => List.not_mem_nil⟩
    cases h with
    | step _ hs =>
      cases hs with
      | stop hl _ =>
        have hi := (List.getElem?_eq_some_iff.1 hl).1
        exact ⟨_, List.getElem?_set_self hi⟩
  | cons e later ih =>
    cases h with
    | step h hs =>
      obtain ⟨⟨d, hover⟩, hwake, hdeed⟩ := ih h
      refine ⟨⟨d, hs.over hover⟩, ?_, ?_⟩
      · intro hmem
        rcases List.mem_cons.1 hmem with rfl | hmem
        · cases hs with
          | wake hl _ => cases hl.symm.trans hover
        · exact hwake hmem
      · intro a hmem
        rcases List.mem_cons.1 hmem with rfl | hmem
        · cases hs with
          | deed hl hd _ =>
            obtain ⟨job, hbusy⟩ := hd.busy
            rw [Option.some.inj (hl.symm.trans hover)] at hbusy
            cases hbusy
        · exact hdeed a hmem

end Service

end DiskWatch
