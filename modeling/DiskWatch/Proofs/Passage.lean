/-
DiskWatch/Proofs/Passage.lean

How jobs pass through ticks.  A tick draws a job, decides about it, and either
concludes at once or offers the job to a queue and then hands it to a watchdog
or takes the admission back.  Every act of a tick moves one job from one stage
to the next one (`Act.passage?`), and no other act moves any.

Main results: for any class of stages, the jobs that have entered it are those
that are in it and those that have left it (`flow`), whatever the order of the
steps.  Each accounting law of this directory about ticks is one instance of
it: `drawn_eq_ended`, `drawn_eq_decided`, `admitted_eq`, `accepted_eq`.
-/
import DiskWatch.Proofs.Interleaving
import Mathlib.Algebra.Order.Group.Multiset
import Mathlib.Tactic.Abel

namespace DiskWatch.Engine

variable {ok : Engine → Act → Prop} {r : Routine} {n : Nat} {past : List Act} {s s' : Engine}
  {e : Act}

/-! ### Passages -/

/-- The passage of a job from one stage of its tick to another one; before its
draw and after its end a tick is at none. -/
structure Passage where
  job : Job
  source : Option TickStage
  target : Option TickStage

/-- The passage that an act is. -/
def Act.passage? : Act → Option Passage
  | draw job => some ⟨job, none, some .drawn⟩
  | reserve job a => some ⟨job, some .drawn, some (.decided a)⟩
  | skip job => some ⟨job, some (.decided .alreadyRunning), none⟩
  | refuse job => some ⟨job, some (.decided .unregistered), none⟩
  | enqueue job e => some ⟨job, some (.decided .admitted), some (.offered e)⟩
  | withdraw job e => some ⟨job, some (.offered (some e)), none⟩
  | dispatch job => some ⟨job, some (.offered none), none⟩
  | _ => none

/-- The tick of a job at a stage, if it is at one. -/
def tickAt (job : Job) : Option TickStage → Multiset Tick
  | some stage => {⟨job, stage⟩}
  | none => 0

/-- A step moves one tick, as its act says, and leaves the others. -/
theorem Step.ticks (h : Step r s e s') {m : Passage} (hm : e.passage? = some m) :
    ∃ others, s.ticks = tickAt m.job m.source + others ∧
      s'.ticks = tickAt m.job m.target + others := by
  cases h with
  | draw => cases hm; exact ⟨s.ticks, by simp [tickAt], by simp [tickAt]⟩
  | reserve ht => cases hm; exact ⟨_, ht, rfl⟩
  | skip ht => cases hm; exact ⟨_, ht, by simp [tickAt]⟩
  | refuse ht => cases hm; exact ⟨_, ht, by simp [tickAt]⟩
  | enqueue ht => cases hm; exact ⟨_, ht, rfl⟩
  | withdraw ht => cases hm; exact ⟨_, ht, by simp [tickAt]⟩
  | dispatch ht => cases hm; exact ⟨_, ht, by simp [tickAt]⟩
  | _ => cases hm

/-- Steps of other tasks leave the ticks alone. -/
theorem Step.ticks_of_none (h : Step r s e s') (hm : e.passage? = none) : s'.ticks = s.ticks := by
  cases h with
  | draw | reserve | skip | refuse | enqueue | withdraw | dispatch => cases hm
  | _ => rfl

/-! ### Flow -/

variable (p : TickStage → Bool)

/-- The jobs of the ticks at the stages of class `p`. -/
def jobsAt (ticks : Multiset Tick) : Multiset Job := (ticks.filter (p ·.stage)).map Tick.job

/-- The job that an act moves into class `p`. -/
def Act.entering (e : Act) : Option Job :=
  e.passage?.bind fun m => if m.target.any p && !m.source.any p then some m.job else none

/-- The job that an act moves out of class `p`. -/
def Act.leaving (e : Act) : Option Job :=
  e.passage?.bind fun m => if m.source.any p && !m.target.any p then some m.job else none

theorem mem_jobsAt {ticks : Multiset Tick} {job : Job} :
    job ∈ jobsAt p ticks ↔ ∃ tick ∈ ticks, p tick.stage = true ∧ tick.job = job := by
  simp [jobsAt, and_assoc]

theorem jobsAt_add (t u : Multiset Tick) : jobsAt p (t + u) = jobsAt p t + jobsAt p u := by
  simp [jobsAt]

theorem jobsAt_tickAt (job : Job) (stage : Option TickStage) :
    jobsAt p (tickAt job stage) = if stage.any p then {job} else 0 := by
  cases stage with
  | none => rfl
  | some stage => cases hp : p stage <;> simp [jobsAt, tickAt, hp, Multiset.filter_singleton]

/-- What is in a class of stages and what has left it is what has entered it. -/
theorem flow (h : RunUnder ok r n past s) :
    (jobs (Act.entering p) past : Multiset Job) = jobsAt p s.ticks + jobs (Act.leaving p) past := by
  induction h with
  | start => rfl
  | @step past s s' e _ hs _ ih =>
    rw [jobs_cons, jobs_cons]
    cases hm : e.passage? with
    -- an act of another task moves no tick
    | none => simp [Act.entering, Act.leaving, hm, hs.ticks_of_none hm, ih]
    | some m =>
      -- the ticks that do not move count the same before and after
      obtain ⟨others, ht, ht'⟩ := hs.ticks hm
      rw [ht, jobsAt_add, jobsAt_tickAt] at ih
      rw [← Multiset.coe_add, ← Multiset.coe_add, ih, ht', jobsAt_add, jobsAt_tickAt]
      cases hsrc : m.source.any p <;> cases htgt : m.target.any p <;>
        simp only [Act.entering, Act.leaving, hm, hsrc, htgt, Option.bind_some, Bool.not_true,
          Bool.not_false, Bool.and_true, Bool.and_false, Bool.false_eq_true, if_true, if_false,
          Option.toList_none, Option.toList_some, Multiset.coe_nil, Multiset.coe_singleton] <;> abel

/-! ### The jobs of acts -/

/-- The job that an act draws. -/
def Act.drawn? : Act → Option Job
  | draw job => some job
  | _ => none

/-- The job that an act decides about. -/
def Act.decided? : Act → Option Job
  | reserve job _ => some job
  | _ => none

/-- The job that an act admits. -/
def Act.admitted? : Act → Option Job
  | reserve job .admitted => some job
  | _ => none

/-- The job that a queue takes in by an act. -/
def Act.accepted? : Act → Option Job
  | enqueue job none => some job
  | _ => none

/-- The job that a queue refuses by an act. -/
def Act.rejected? : Act → Option Job
  | enqueue job (some _) => some job
  | _ => none

/-- The job whose admission an act takes back. -/
def Act.withdrawn? : Act → Option Job
  | withdraw job _ => some job
  | _ => none

/-- The job that an act hands to a watchdog. -/
def Act.dispatched? : Act → Option Job
  | dispatch job => some job
  | _ => none

/-- The job whose tick an act ends. -/
def Act.ended? : Act → Option Job
  | skip job => some job
  | refuse job => some job
  | withdraw job _ => some job
  | dispatch job => some job
  | _ => none

/-- Acts of a narrower kind give a part of the jobs. -/
theorem jobs_sublist {f g : Act → Option Job} (hfg : ∀ e job, f e = some job → g e = some job)
    (past : List Act) : (jobs f past).Sublist (jobs g past) := by
  induction past with
  | nil => exact List.Sublist.refl _
  | cons e past ih =>
    rw [jobs_cons, jobs_cons]
    refine ih.append ?_
    cases hf : f e with
    | none => simp
    | some job => rw [hfg e job hf]

theorem jobs_nodup_of_le {f g : Act → Option Job} (hle : (jobs f past : Multiset Job) ≤ jobs g past)
    (hn : (jobs g past).Nodup) : (jobs f past).Nodup := by
  rw [← Multiset.coe_nodup] at hn ⊢
  exact Multiset.nodup_of_le hle hn

/-- Acts of two kinds together. -/
theorem jobs_add {f g k : Act → Option Job}
    (hf : ∀ e, ((f e).toList : Multiset Job) = (g e).toList + (k e).toList) (past : List Act) :
    (jobs f past : Multiset Job) = jobs g past + jobs k past := by
  induction past with
  | nil => rfl
  | cons e past ih =>
    simp only [jobs_cons, ← Multiset.coe_add, ih, hf e]
    abel

/-! ### Accounts -/

/-- Ticks that were drawn are under way or have ended. -/
theorem drawn_eq_ended (h : RunUnder ok r n past s) :
    (jobs Act.drawn? past : Multiset Job) = s.ticks.map Tick.job + jobs Act.ended? past := by
  -- a tick enters the class of all stages by its draw and leaves it by its end
  have hin : Act.entering (fun _ => true) = Act.drawn? := by funext e; cases e <;> rfl
  have hout : Act.leaving (fun _ => true) = Act.ended? := by funext e; cases e <;> rfl
  have := flow (fun _ => true) h
  rw [hin, hout] at this
  simpa [jobsAt] using this

/-- Ticks that were drawn wait for their decision or have it. -/
theorem drawn_eq_decided (h : RunUnder ok r n past s) :
    (jobs Act.drawn? past : Multiset Job) =
      jobsAt (· = .drawn) s.ticks + jobs Act.decided? past := by
  have hin : Act.entering (· = .drawn) = Act.drawn? := by funext e; cases e <;> rfl
  have hout : Act.leaving (· = .drawn) = Act.decided? := by funext e; cases e <;> rfl
  exact hin ▸ hout ▸ flow (· = .drawn) h

/-- Admitted jobs are pledged to their ticks, were taken in by a queue, or were
withdrawn. -/
theorem admitted_eq (h : RunUnder ok r n past s) :
    (jobs Act.admitted? past : Multiset Job) =
      jobsAt TickStage.pledged s.ticks + (jobs Act.accepted? past + jobs Act.withdrawn? past) := by
  have hin : Act.entering TickStage.pledged = Act.admitted? := by
    funext e
    cases e with
    | reserve job a => cases a <;> rfl
    | enqueue job e => cases e <;> rfl
    | _ => rfl
  -- there are two ways out of a pledge
  have hout : ∀ e, ((Act.leaving TickStage.pledged e).toList : Multiset Job) =
      e.accepted?.toList + e.withdrawn?.toList := by
    intro e
    cases e with
    | reserve job a => cases a <;> rfl
    | enqueue job e => cases e <;> rfl
    | _ => rfl
  rw [← jobs_add hout, ← hin]
  exact flow TickStage.pledged h

/-- Jobs that were taken in wait for their dispatch or have it. -/
theorem accepted_eq (h : RunUnder ok r n past s) :
    (jobs Act.accepted? past : Multiset Job) =
      jobsAt (· = .offered none) s.ticks + jobs Act.dispatched? past := by
  have hin : Act.entering (· = .offered none) = Act.accepted? := by
    funext e
    cases e with
    | enqueue job e => cases e <;> rfl
    | _ => rfl
  have hout : Act.leaving (· = .offered none) = Act.dispatched? := by
    funext e
    cases e with
    | enqueue job e => cases e <;> rfl
    | _ => rfl
  exact hin ▸ hout ▸ flow (· = .offered none) h

end DiskWatch.Engine
