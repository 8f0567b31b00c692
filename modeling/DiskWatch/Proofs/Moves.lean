/-
DiskWatch/Proofs/Moves.lean

Moves of workers and watchdogs as steps of the engine.  Whatever a world goes
through in one move of such a task, the engine that it shows goes through in a
few steps of the worker or the watchdog, or in none (`moveWorker_followed`,
`moveWatchdog_followed`).  No time passes in a move.
-/
import DiskWatch.Proofs.Service
import DiskWatch.Proofs.Tasks

namespace DiskWatch.World

open Engine (Act OwnStep of_glance)

variable {w w' : World} {task : Task} {r : Routine} {rest : Multiset Task} {s : Engine}
  {c : Category} {begun : Bool} {run : Option Run}

/-! ### Moves of a measurement -/

theorem set_worker (s : Engine) (c : Category) :
    { s with workers := s.workers.set c (s.worker c) } = s := by
  rw [Engine.worker, PerCategory.set_get]

/-- One move of a measurement ends it, or is at most one step of the worker. -/
theorem moveRun_leads (hk : s.collector = w.collector) {run : Run}
    (hst : Stands (some run) (s.worker c)) {p : Progress} (hm : w.moveRun run = (p, w')) :
    w.Alike w' ∧
      ((∃ result, p = .ended result ∧ w' = w ∧
          s.worker c = .measuring run.job run.span (.done result)) ∨
        ∃ run' acts stage, (p = .goOn run' ∨ ∃ wait, p = .wait run' wait) ∧
          Stands (some run') stage ∧ Leads (OwnStep r) s acts
            { s with collector := w'.collector, workers := s.workers.set c stage }) := by
  have hstay : Leads (OwnStep r) s []
      { s with collector := w.collector, workers := s.workers.set c (s.worker c) } := by
    rw [← hk, set_worker]; exact .refl
  generalize hstage : s.worker c = stage at hst hstay
  cases hst with
  | going job span rest =>
    cases rest with
    | done result => cases hm; exact ⟨.refl w, .inl ⟨result, rfl, rfl, rfl⟩⟩
    | look path next =>
      cases hm
      refine ⟨.refl w, .inr ⟨_, [.look c path], _, .inr ⟨_, rfl⟩, .going job span _, ?_⟩⟩
      exact hk ▸ .one ⟨.look hstage _, rfl, nofun⟩
    | note o next =>
      cases hm
      refine ⟨⟨rfl, rfl, rfl, rfl, rfl, rfl⟩, .inr ⟨_, [.note c o], _, .inl rfl,
        .going job span next, ?_⟩⟩
      have hnote : Leads (OwnStep r) s _ _ := .one ⟨.note hstage, rfl, nofun⟩
      rw [hk] at hnote
      exact hnote
    | call k next =>
      unfold moveRun at hm
      dsimp only at hm
      split at hm
      · cases hm
        refine ⟨⟨rfl, rfl, rfl, rfl, rfl, rfl⟩, .inr ⟨_, [.call c k], _, .inl rfl,
          .going job span _, ?_⟩⟩
        exact hk ▸ .one ⟨.call hstage _, rfl, nofun⟩
      · cases hm
        -- a call that takes time is one step of the engine, at its answer
        refine ⟨⟨rfl, rfl, rfl, rfl, rfl, rfl⟩, .inr ⟨_, [], _, .inr ⟨_, rfl⟩,
          .calling job span k next, hstay⟩⟩
    | pause length next =>
      unfold moveRun at hm
      dsimp only at hm
      split at hm
      · cases hm
        refine ⟨.refl w, .inr ⟨_, [.pause c], _, .inl rfl, .going job span _, ?_⟩⟩
        exact hk ▸ .one ⟨.pause hstage fun hc => hk ▸ (Bool.and_eq_true_iff.1 hc).1, rfl, nofun⟩
      · cases hm
        exact ⟨.refl w, .inr ⟨_, [], _, .inr ⟨_, rfl⟩, .pausing job span _ length next, hstay⟩⟩
  | calling job span k next =>
    cases hm
    refine ⟨⟨rfl, rfl, rfl, rfl, rfl, rfl⟩, .inr ⟨_, [.call c k], _, .inl rfl,
      .going job span _, ?_⟩⟩
    exact hk ▸ .one ⟨.call hstage _, rfl, nofun⟩
  | pausing job span wake length next =>
    cases hm
    refine ⟨.refl w, .inr ⟨_, [.pause c], _, .inl rfl, .going job span _, ?_⟩⟩
    exact hk ▸ .one ⟨.pause hstage fun hc => hk ▸ (Bool.and_eq_true_iff.1 hc).1, rfl, nofun⟩

/-! ### Moves of tasks -/

/-- The tasks after a move of one of them, the others being `rest`. -/
def left (m : Move) (rest : Multiset Task) : Multiset Task :=
  match m with
  | .goOn task => task ::ₘ rest
  | .wait task _ => task ::ₘ rest
  | .over => rest

/-- What a task goes from beat to beat for. -/
def dutyOf? : Task → Option Duty
  | .timer t _ => some (.tick t)
  | .depthSampler _ => some .sampleDepths
  | .taskSampler _ => some .countTasks
  | _ => none

/-- What a move leaves its task at: it is no errand and has the duty that it had, and
a watchdog that waits sleeps. -/
def Proper (w : World) (task : Task) (m : Move) : Prop :=
  match m with
  | .goOn task' => isErrand task' = false ∧ dutyOf? task' = dutyOf? task
  | .wait task' wait => isErrand task' = false ∧ dutyOf? task' = dutyOf? task ∧ w.Asleep task' wait
  | .over => True

/-- After this move of a worker or a watchdog the world shows an engine some steps on. -/
structure Followed (r : Routine) (s : Engine) (rest : Multiset Task) (w w' : World)
    (task : Task) (m : Move) : Prop where
  proper : Proper w' task m
  alike : w.Alike w'
  leads : ∃ acts s', Leads (OwnStep r) s acts s' ∧ Shows r w' (left m rest) s'

/-- A worker at a job: a step of the measurement, or its end. -/
theorem busyWorker_followed {current : Run}
    (hs : Shows r w (.worker c begun (some current) ::ₘ rest) s) {m : Move}
    (hm : w.moveWorker c begun (some current) = (m, w')) :
    Followed r s rest w w' (.worker c begun (some current)) m := by
  rcases hp : w.moveRun current with ⟨p, w₁⟩
  simp only [moveWorker, hp] at hm
  obtain ⟨ha, ⟨result, rfl, rfl, hstage⟩ | ⟨run', acts, stage, hp', hst', hleads⟩⟩ :=
    moveRun_leads hs.collector hs.worker.2 hp
  · cases hm
    have hsettle : Engine.Step r s (.settle c current.job)
        { s with
          collector := s.collector.settle current.job current.span w₁.now result
            (w₁.settings.stopwatch current.job)
          workers := s.workers.set c .free } := .settle hstage
    have ha' : w₁.Alike (w₁.endRun current result) := ⟨rfl, rfl, rfl, rfl, rfl, rfl⟩
    rw [hs.collector] at hsettle
    exact ⟨⟨rfl, rfl⟩, ha', _, _, .one ⟨hsettle, rfl, nofun⟩, hs.workerTo true .free ha'⟩
  · rcases hp' with rfl | ⟨wait, rfl⟩
    · cases hm
      exact ⟨⟨rfl, rfl⟩, ha, acts, _, hleads, hs.workerTo true hst' ha⟩
    · cases hm
      exact ⟨⟨rfl, rfl, trivial⟩, ha, acts, _, hleads, hs.workerTo true hst' ha⟩

theorem Shows.free (h : Shows r w (.worker c begun none ::ₘ rest) s) : s.workers.get c = .free := by
  have hst := h.worker.2
  generalize hstage : s.worker c = stage at hst
  cases hst
  exact hstage

/-- A free worker that is not asked to stop turns to its queue. -/
theorem nextJob_followed (hs : Shows r w (.worker c true none ::ₘ rest) s)
    (hf : w.collector.shutdown = false) {m : Move} (hm : w.moveWorker c true none = (m, w')) :
    Followed r s rest w w' (.worker c true none) m := by
  have hready : Leads (OwnStep r) s _ _ := .one ⟨.ready hs.free (hs.collector ▸ hf), rfl, nofun⟩
  -- what is one move of the task is up to three steps of the worker
  rcases hd : w.collector.takeJob c with ⟨d, k⟩
  have hk : k.shutdown = w.collector.shutdown := by
    obtain rfl : (w.collector.takeJob c).2 = k := by rw [hd]
    rfl
  simp only [moveWorker, hf, hd, Bool.not_true, Bool.false_eq_true, if_false] at hm
  rw [← hs.collector] at hd
  cases d with
  | job job =>
    rcases hb : k.begin job w.now with ⟨span, k'⟩
    have hk' : k'.shutdown = w.collector.shutdown := by
      obtain rfl : (k.begin job w.now).2 = k' := by rw [hb]
      exact hk
    simp only [beginRun, hb] at hm
    cases hm
    have htake := hready.step ⟨.take (PerCategory.get_set _ _ _) hd, rfl, nofun⟩
    have hbegin := htake.step ⟨.begin (PerCategory.get_set _ _ _) hb, rfl, nofun⟩
    simp only [PerCategory.set_set] at hbegin
    have hpolicy : w.settings.policy = r.policy := congrArg Routine.policy hs.routine
    rw [hpolicy]
    exact ⟨⟨rfl, rfl⟩, .ofCollector hk', _, _, hbegin,
      hs.workerTo true (.going job span _) (.ofCollector hk')⟩
  | pending =>
    cases hm
    have hidle := hready.step ⟨.idle (PerCategory.get_set _ _ _) hd, rfl, nofun⟩
    simp only [PerCategory.set_set] at hidle
    exact ⟨⟨rfl, rfl, trivial⟩, .ofCollector hk, _, _, hidle,
      hs.workerTo true .free (.ofCollector hk)⟩
  | finished | dropped =>
    cases hm
    have hstop := hready.step ⟨.finish (PerCategory.get_set _ _ _) hd (by simp), rfl, nofun⟩
    simp only [PerCategory.set_set] at hstop
    have ha : w.Alike { w with collector := k.stopWorker c } := .ofCollector hk
    exact ⟨trivial, ha, _, _, hstop, hs.workerStops ha⟩

theorem moveWorker_followed (hs : Shows r w (.worker c begun run ::ₘ rest) s) {m : Move}
    (hm : w.moveWorker c begun run = (m, w')) : Followed r s rest w w' (.worker c begun run) m := by
  cases run with
  | some current => exact busyWorker_followed hs hm
  | none =>
    cases begun with
    | false =>
      cases hm
      have hlog : Leads (OwnStep r) s _ _ := .one ⟨.remark s (.workerStarted c), rfl, nofun⟩
      have ha : w.Alike (w.onCollector (·.log (.workerStarted c))) := .ofCollector rfl
      have hto := hs.workerTo true .free ha
      rw [← hs.free, PerCategory.set_get] at hto
      rw [hs.collector] at hlog
      exact ⟨⟨rfl, rfl⟩, ha, _, _, hlog, hto⟩
    | true =>
      cases hf : w.collector.shutdown with
      | false => exact nextJob_followed hs hf hm
      | true =>
        simp only [moveWorker, hf, Bool.not_true, Bool.false_eq_true, if_false, if_true] at hm
        cases hm
        have hstop : Leads (OwnStep r) s _ _ :=
          .one ⟨.stop hs.free (hs.collector ▸ hf), rfl, nofun⟩
        have ha : w.Alike (w.onCollector (·.stopWorker c)) := .ofCollector rfl
        rw [hs.collector] at hstop
        exact ⟨trivial, ha, _, _, hstop, hs.workerStops ha⟩

theorem moveWatchdog_followed {id : JobId} {cycle : Option Nat} {timeout : Duration}
    {watch : Option Watch} (hs : Shows r w (.watchdog id cycle timeout watch ::ₘ rest) s) {m : Move}
    (hm : w.moveWatchdog id cycle timeout watch = (m, w')) :
    Followed r s rest w w' (.watchdog id cycle timeout watch) m := by
  obtain ⟨job, others, hsen, rfl, rfl, rfl, hviews⟩ := hs.sentry
  unfold moveWatchdog at hm
  cases watch with
  | none =>
    dsimp only at hm
    rw [hs.routine, ← hs.now] at hm
    split at hm
    · next hb =>
      cases hm
      have hover := hs.sentryOver hviews (.refl w)
      rw [← hs.collector] at hover
      exact ⟨trivial, .refl w, _, _, .one ⟨.faint hsen hb, rfl, nofun⟩, hover⟩
    · next v hb =>
      cases hm
      exact ⟨⟨rfl, rfl⟩, .refl w, _, _, .one ⟨.awake hsen hb, rfl, nofun⟩, hs.sentryTo hviews _⟩
  | some v =>
    dsimp only at hm
    rw [hs.routine, ← hs.now, ← hs.collector] at hm
    split at hm
    · next verdict hg =>
      cases hm
      have hclose : Leads (OwnStep r) s _ _ := .one ⟨.close hsen hg, rfl, nofun⟩
      rw [hs.collector] at hclose
      have ha : w.Alike (w.onCollector
          (·.closeWatch job.id job.cycle verdict (Clock.since v.began s.now))) := .ofCollector rfl
      exact ⟨trivial, ha, _, _, hclose, hs.sentryOver hviews ha⟩
    · next due hg =>
      cases hm
      exact ⟨⟨rfl, rfl⟩, .refl w, _, _, .one ⟨.watch hsen hg, rfl, nofun⟩, hs.sentryTo hviews _⟩
    · next hg =>
      cases hm
      -- the engine makes no step here: there is nothing to see of a task that falls asleep
      have hsleep : s.collector.shutdown = false ∧ s.now < r.clock.alarm v.due := of_glance hg
      rw [hs.collector, hs.now, ← hs.routine] at hsleep
      exact ⟨⟨rfl, rfl, v, rfl, rfl, hsleep⟩, .refl w, _, _, .refl, hs⟩
    · next hg =>
      cases hm
      have hover := hs.sentryOver hviews (.refl w)
      rw [← hs.collector] at hover
      exact ⟨trivial, .refl w, _, _, .one ⟨.falter hsen hg, rfl, nofun⟩, hover⟩

end DiskWatch.World
