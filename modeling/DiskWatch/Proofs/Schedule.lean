/-
DiskWatch/Proofs/Schedule.lean

The program's own schedule is one of the interleavings.  What a world goes
through in one step, the daemon that it shows goes through in a few (`step?_run`),
so what holds of the runs of the daemon, and of its engine, holds of the program.

The schedule is prompt, too.  The clock moves only when every task waits, and to
the next alarm, and a watchdog that waits has its alarm set for its next look
(`Asleep`).

Main results: whatever the program comes to is shown by a prompt run
(`serving_shown`), so its queues never hold more than they may (`serving_size_le`);
and running it for some time (`Serving.advance`) and stopping it (`Serving.stop`)
lead to such worlds only.
-/
import DiskWatch.Daemon
import DiskWatch.Proofs.Beats

namespace DiskWatch

/-! ### Prompt runs of the daemon -/

namespace Service

open Engine (Prompt RunUnder prompt_of_still)

variable {r : Routine} {config : Config} {past : List Act} {v v' : Service} {e : Act}

/-- A run of the daemon whose engine is prompt. -/
structure PromptRun (r : Routine) (config : Config) (past : List Act) (v : Service) : Prop where
  run : Run r config past v
  prompt : RunUnder (Prompt r) r config.queueCapacity.toNat (engineActs past) v.engine

theorem PromptRun.step (h : PromptRun r config past v) (hs : Step r v e v')
    (hp : ∀ a, e.engine? = some a → Prompt r v.engine a) : PromptRun r config (e :: past) v' :=
  ⟨h.run.step hs, hs.engineRun h.prompt hp⟩

/-- Where no time passes a step is prompt. -/
theorem PromptRun.still (h : PromptRun r config past v) (hs : Step r v e v')
    (he : ∀ t, e ≠ .own (.elapse t)) : PromptRun r config (e :: past) v' := by
  refine h.step hs fun a ha => prompt_of_still ?_
  rintro t rfl
  cases hs with
  | own =>
    cases ha
    exact he t rfl
  | deed _ hd _ =>
    cases ha
    -- no loop lets time pass
    cases hd with
    | goOn _ _ _ _ _ he | finish _ _ _ _ he => cases he
  | _ => cases ha

theorem PromptRun.leads {acts : List Act} (h : PromptRun r config past v)
    (hl : Leads (Step r) v acts v') (hc : Calm acts) : PromptRun r config (acts ++ past) v' := by
  induction hl with
  | refl => exact h
  | step _ hs ih =>
    have hbefore := ih fun e he => hc e (List.mem_cons_of_mem _ he)
    exact hbefore.still hs (hc _ List.mem_cons_self)

end Service

namespace World

open Engine (Prompt)
open Service (PromptRun)

variable {w w' : World} {x : Slot} {task : Task} {number : Nat} {r : Routine}
  {rest : Multiset Task} {chores : List Chore} {s : Engine} {v : Service} {config : Config}
  {past : List Service.Act}

/-! ### Steps -/

/-- A world in good order that shows where a run has come to. -/
structure Mirrors (r : Routine) (chores : List Chore) (w : World) (v : Service) : Prop where
  visible : Serves r chores w w.tasks v
  orderly : w.Orderly none

/-- The move of a task is some steps of a run. -/
theorem runMove_run (h : PromptRun r config past v) (hs : Serves r chores w w.tasks v)
    (ho : w.Orderly (some number)) : ∃ acts v', PromptRun r config (acts ++ past) v' ∧
      Mirrors r chores (w.runMove number) v' := by
  unfold runMove
  cases hf : w.slots.find? (·.number == number) with
  | none =>
    have hne := List.find?_eq_none.1 hf
    refine ⟨[], v, h, hs, ho.numbers, ho.below, ho.noErrand, fun x hx _ => ho.tidy x hx ?_⟩
    rintro ⟨⟩
    exact hne x hx (beq_self_eq_true _)
  | some x =>
    have hx := List.mem_of_find?_eq_some hf
    obtain rfl : x.number = number := by simpa using List.find?_some hf
    rw [tasks_eq_cons ho.numbers hx] at hs
    rcases hm : w.move x.task with ⟨m, u⟩
    obtain ⟨hproper, new, acts, v', hposts, hleads, hcalm, hserves⟩ :=
      move_attended hs (ho.noErrand x hx) hm
    have ho' := hposts.orderly ho
    obtain ⟨y, hy, hnum, -⟩ := hposts.slot hx
    rw [← hposts.others_eq ho hx] at hserves
    -- the slot takes what the move leaves the task at
    have hset : ∀ task wait, (u.setSlot x.number task wait).tasks = task ::ₘ u.others x.number :=
      fun task wait => hnum ▸ tasks_setSlot ho'.numbers hy task wait
    refine ⟨acts, v', h.leads hleads hcalm, ?_⟩
    cases m with
    | goOn task =>
      simp only [hm]
      have hserves' : Serves r chores u (u.setSlot x.number task none).tasks v' := by
        rw [hset]; exact hserves
      refine ⟨hserves'.congr rfl rfl rfl, ho'.setSlot hproper.1 (List.subset_cons_self _ _)
        (fun _ => List.mem_cons_self) fun _ hwait => by cases hwait⟩
    | wait task wait =>
      simp only [hm]
      have hserves' : Serves r chores u (u.setSlot x.number task (some wait)).tasks v' := by
        rw [hset]; exact hserves
      refine ⟨hserves'.congr rfl rfl rfl, ho'.setSlot hproper.1 (List.Subset.refl _)
        (fun hwait => by cases hwait) ?_⟩
      rintro _ ⟨⟩
      exact hproper.2.2
    | _ =>
      simp only [hm]
      exact ⟨hserves.congr rfl rfl rfl, ho'.remove⟩

/-! ### Time -/

/-- The earlier of an instant and the alarm of a slot. -/
def sooner (soonest : Option Instant) (x : Slot) : Option Instant :=
  match x.wait, soonest with
  | some (.alarm t _), none => some t
  | some (.alarm t _), some u => some (min t u)
  | _, _ => soonest

theorem nextAlarm?_eq (w : World) : w.nextAlarm? = w.slots.foldl sooner none := rfl

theorem sooner_le_left (x : Slot) (t : Instant) : ∃ u, sooner (some t) x = some u ∧ u ≤ t := by
  unfold sooner
  split
  · next h => cases h
  · next u h => cases h; exact ⟨_, rfl, Nat.min_le_right _ _⟩
  · exact ⟨t, rfl, Nat.le_refl t⟩

theorem sooner_le_right {t : Instant} {cut : Bool} (hx : x.wait = some (.alarm t cut))
    (soonest : Option Instant) : ∃ u, sooner soonest x = some u ∧ u ≤ t := by
  unfold sooner
  rw [hx]
  cases soonest with
  | none => exact ⟨t, rfl, Nat.le_refl t⟩
  | some u => exact ⟨_, rfl, Nat.min_le_left _ _⟩

theorem foldl_sooner_le (xs : List Slot) (t : Instant) :
    ∃ u, xs.foldl sooner (some t) = some u ∧ u ≤ t := by
  induction xs generalizing t with
  | nil => exact ⟨t, rfl, Nat.le_refl t⟩
  | cons x xs ih =>
    obtain ⟨u, hu, hle⟩ := sooner_le_left x t
    obtain ⟨v, hv, hle'⟩ := ih u
    exact ⟨v, by rw [List.foldl_cons, hu, hv], Nat.le_trans hle' hle⟩

/-- The next alarm is the earliest one. -/
theorem nextAlarm?_le {t : Instant} {cut : Bool} (hx : x ∈ w.slots)
    (hw : x.wait = some (.alarm t cut)) : ∃ u, w.nextAlarm? = some u ∧ u ≤ t := by
  rw [nextAlarm?_eq]
  obtain ⟨front, back, hsplit⟩ := List.append_of_mem hx
  obtain ⟨u, hu, hle⟩ := sooner_le_right hw (front.foldl sooner none)
  obtain ⟨v, hv, hle'⟩ := foldl_sooner_le back u
  refine ⟨v, ?_, Nat.le_trans hle' hle⟩
  rw [hsplit, List.foldl_append, List.foldl_cons, hu, hv]

/-- A watchdog of the engine is a task of the world. -/
theorem Shows.slot (h : Shows r w w.tasks s) {y : Sentry} (hy : y ∈ s.sentries) :
    ∃ x ∈ w.slots, x.task = .watchdog y.job.id y.job.cycle y.job.timeout y.watch := by
  have hview := Multiset.mem_map_of_mem viewOf hy
  rw [h.sentries, Multiset.mem_filterMap] at hview
  obtain ⟨task, htask, hsame⟩ := hview
  obtain ⟨x, hx, rfl⟩ := List.mem_map.1 (Multiset.mem_coe.1 htask)
  refine ⟨x, hx, ?_⟩
  generalize x.task = task at hsame ⊢
  cases task with
  | watchdog => cases hsame; rfl
  | _ => cases hsame

/-- While no task is ready every watchdog sleeps. -/
theorem Mirrors.sleeps (h : Mirrors r chores w v) (hr : w.ready = []) {y : Sentry}
    (hy : y ∈ v.engine.sentries) : ∃ u, y.watch = some u ∧
      u.glance r v.engine.collector y.job.id v.engine.now = .sleep ∧
      v.engine.now < r.clock.alarm u.due ∧
      ∃ x ∈ w.slots, x.wait = some (.alarm (r.clock.alarm u.due) true) := by
  have hs := h.visible.visible
  obtain ⟨x, hx, htask⟩ := hs.slot hy
  have htidy := h.orderly.tidy x hx nofun
  cases hwait : x.wait with
  | none =>
    have hmem := htidy.ready hwait
    rw [hr] at hmem
    cases hmem
  | some wait =>
    have hsleep := htidy.asleep wait hwait
    rw [htask] at hsleep
    obtain ⟨u, hu, rfl, hf, hlt⟩ := hsleep
    rw [beatWait, hs.routine] at hwait
    rw [hs.routine, ← hs.now] at hlt
    rw [← hs.collector] at hf
    refine ⟨u, hu, ?_, hlt, x, hx, hwait⟩
    simp [Watch.glance, hf, Nat.not_le.2 hlt]

/-- What is shown moves along with the clock. -/
theorem Serves.elapse (h : Serves r chores w rest v) (t : Instant) :
    Serves r chores { w with now := t } rest { v with engine := { v.engine with now := t } } := by
  obtain ⟨⟨hr, -, hk, hticks, hsample, hworkers, hsentries⟩, hchores, hresult, hwaiting, hidle⟩ := h
  exact ⟨⟨hr, rfl, hk, hticks, hsample, hworkers, hsentries⟩, hchores, hresult, hwaiting, hidle⟩

/-- While no task is ready, time may pass up to the next alarm. -/
theorem elapse_run (h : PromptRun r config past v) (hm : Mirrors r chores w v)
    (hr : w.ready = []) {t : Instant} (hle : w.now ≤ t)
    (hnext : ∀ u, w.nextAlarm? = some u → t ≤ max w.now u) :
    PromptRun r config (.own (.elapse t) :: past)
      { v with engine := { v.engine with now := t } } := by
  have hnow := hm.visible.visible.now
  refine h.step (.own rfl (.elapse (hnow ▸ hle))) ?_
  rintro _ ⟨⟩ _ ⟨⟩ y hy
  -- the alarm of this watchdog is not before the next one
  obtain ⟨watch, hwatch, hsleep, hlt, x, hx, hwait⟩ := hm.sleeps hr hy
  obtain ⟨u, hu, hua⟩ := nextAlarm?_le hx hwait
  refine ⟨watch, hwatch, hsleep, Nat.le_trans (hnext u hu) (Nat.max_le.2 ⟨?_, hua⟩)⟩
  exact hnow ▸ Nat.le_of_lt hlt

/-- A watchdog that is not due yet sleeps on as time passes. -/
theorem Asleep.elapse {wait : Wait} {t : Instant} (h : w.Asleep task wait)
    (hd : ∀ a, wait = .alarm a true → w.now < a → t < a) :
    Asleep { w with now := t } task wait := by
  cases task with
  | watchdog =>
    obtain ⟨v, hv, hbeat, hf, hlt⟩ := h
    exact ⟨v, hv, hbeat, hf, hd _ hbeat hlt⟩
  | _ => trivial

/-- A step of the world is some steps of a prompt run. -/
theorem step?_run (h : PromptRun r config past v) (hm : Mirrors r chores w v)
    {horizon : Option Instant} (hstep : w.step? horizon = some w') :
    ∃ acts v', PromptRun r config (acts ++ past) v' ∧ Mirrors r chores w' v' := by
  have ho := hm.orderly
  unfold step? at hstep
  split at hstep
  · next number rest hr =>
    cases hstep
    refine runMove_run h (hm.visible.congr rfl rfl rfl) ?_
    refine ⟨ho.numbers, ho.below, ho.noErrand, fun x hx hne => ⟨fun hw => ?_, ?_⟩⟩
    · have hmem := (ho.tidy x hx (by simp)).ready hw
      rw [hr] at hmem
      exact (List.mem_cons.1 hmem).resolve_left fun he => hne (he ▸ rfl)
    · exact (ho.tidy x hx (by simp)).asleep
  · next hr =>
    split at hstep
    · cases hstep
      refine ⟨[], v, h, ?_, ho.wakeWhere _⟩
      rw [tasks_wakeWhere]
      exact hm.visible.congr rfl rfl rfl
    · split at hstep
      · cases hstep
      · next u hu =>
        split at hstep
        · cases hstep
          refine ⟨[.own (.elapse (max w.now u))], _,
            elapse_run h hm hr (Nat.le_max_left _ _) fun u' hu' => ?_, ?_, ?_⟩
          · rw [hu] at hu'
            cases hu'
            exact Nat.le_refl _
          · rw [tasks_wakeWhere]
            exact (hm.visible.elapse _).congr rfl rfl rfl
          · refine Orderly.ofWake (w := { w with now := max w.now u }) ho.numbers ho.below
              ho.noErrand _ fun x hx hp _ => ?_
            have htidy := ho.tidy x hx (by simp)
            -- whoever is not waked has an alarm that is still to come
            refine ⟨htidy.ready, fun wait hwait => (htidy.asleep wait hwait).elapse ?_⟩
            rintro a rfl hlt
            rw [hwait, Option.any_some, Wait.isDue, decide_eq_false_iff_not] at hp
            exact Nat.max_lt.2 ⟨hlt, Nat.lt_of_not_le hp⟩
        · cases hstep

/-! ### The daemon -/

/-- A prompt run of the daemon has come to what the world shows, with these chores left. -/
def Shown (r : Routine) (config : Config) (chores : List Chore) (w : World) : Prop :=
  ∃ past v, PromptRun r config past v ∧ Mirrors r chores w v

namespace Shown

theorem step (h : Shown r config chores w) {horizon : Option Instant}
    (hs : w.step? horizon = some w') : Shown r config chores w' := by
  obtain ⟨past, v, hrun, hm⟩ := h
  obtain ⟨acts, v', hrun', hm'⟩ := step?_run hrun hm hs
  exact ⟨acts ++ past, v', hrun', hm'⟩

theorem log (h : Shown r config chores w) (e : Event) :
    Shown r config chores (w.onCollector (·.log e)) := by
  obtain ⟨past, v, hrun, ⟨hshows, hchores, hresult, hwaiting, hidle⟩, ho⟩ := h
  have ha : w.Alike (w.onCollector (·.log e)) := .ofCollector rfl
  have hrun' := hrun.still (.own rfl (.remark v.engine e)) nofun
  rw [hshows.collector] at hrun'
  exact ⟨_, _, hrun', ⟨hshows.alike ha, hchores, hresult, hwaiting, hidle⟩, ho.alike ha⟩

/-- The daemon registers targets. -/
theorem register {ts : List Target} (h : Shown r config (ts.map .register ++ chores) w) :
    Shown r config chores (w.onCollector (ts.foldl Collector.register)) := by
  induction ts generalizing w with
  | nil => exact h
  | cons t ts ih =>
    obtain ⟨past, v, hrun, ⟨hshows, hchores, hresult, hwaiting, hidle⟩, ho⟩ := h
    have ha : w.Alike (w.onCollector (·.register t)) := .ofCollector rfl
    have hrun' := hrun.still (.register hchores (.register v.engine t)) nofun
    rw [hshows.collector] at hrun'
    exact ih ⟨_, _, hrun', ⟨hshows.alike ha, rfl, hresult, hwaiting, hidle⟩, ho.alike ha⟩

/-- The daemon starts a task with a duty. -/
theorem spawn {d : Duty} (h : Shown r config (.spawn d :: chores) w) (hd : dutyOf? task = some d) :
    Shown r config chores (w.spawn task) := by
  obtain ⟨past, v, hrun, ⟨hshows, hchores, hresult, hwaiting, hidle⟩, ho⟩ := h
  have herrand : isErrand task = false := by
    cases task with
    | errand => cases hd
    | _ => rfl
  refine ⟨_, _, hrun.still (.spawn hchores) nofun, ⟨?_, rfl, hresult, ?_, ?_⟩, ho.spawn herrand⟩
  · rw [tasks_spawn]
    exact (Shows.cons_iff (unseen_of_duty hd)).2 (hshows.congr rfl rfl rfl)
  · rw [tasks_spawn, Multiset.filterMap_cons_some dutyOf? task _ hd, ← hwaiting,
      List.filterMap_append, ← Multiset.coe_add, add_comm]
    rfl
  · intro l hl
    rcases List.mem_append.1 hl with hl | hl
    · exact hidle l hl
    · rw [List.mem_singleton.1 hl]
      exact .inl rfl

theorem startTimers {ts : List Target}
    (h : Shown r config (ts.map .register ++ (ts.map (.spawn <| .tick ·) ++ chores)) w) :
    Shown r config chores (w.startTimers ts) := by
  have hspawn : ∀ (ts : List Target) {w : World},
      Shown r config (ts.map (.spawn <| .tick ·) ++ chores) w →
        Shown r config chores (ts.foldl (fun w t => w.spawn (.timer t none)) w) := by
    intro ts
    induction ts with
    | nil => exact id
    | cons t ts ih => exact fun h => ih (h.spawn rfl)
  exact hspawn ts (h.register.log _)

/-- A shutdown ends the wait of every watchdog. -/
theorem shutdown (h : Shown r config chores w) : Shown r config chores w.shutdown := by
  obtain ⟨past, v, hrun, hserves, ho⟩ := h
  refine ⟨_, _, hrun.still (.own rfl (.shutdown v.engine)) nofun, ?_, ?_⟩
  · rw [World.shutdown, tasks_wakeWhere]
    obtain ⟨⟨hr, hnow, hk, hticks, hsample, hworkers, hsentries⟩, hchores, hresult, hwaiting,
      hidle⟩ := hserves
    exact ⟨⟨hr, hnow, hk ▸ rfl, hticks, hsample, hworkers, hsentries⟩, hchores, hresult, hwaiting,
      hidle⟩
  · refine Orderly.ofWake (w := w.onCollector Collector.requestShutdown) ho.numbers ho.below
      ho.noErrand _ fun x hx hp _ => ?_
    have htidy := ho.tidy x hx (by simp)
    refine ⟨htidy.ready, fun wait hwait => ?_⟩
    have hsleep := htidy.asleep wait hwait
    generalize x.task = task at hsleep ⊢
    cases task with
    | watchdog =>
      -- the alarm of a watchdog can be cut, so it would have been waked
      obtain ⟨u, -, rfl, -⟩ := hsleep
      rw [hwait] at hp
      cases hp
    | _ => trivial

/-- Time passes where nothing is left to do before an instant. -/
theorem pass (h : Shown r config chores w) {t : Instant} (hle : w.now ≤ t)
    (hs : w.step? (some t) = none) : Shown r config chores { w with now := t } := by
  obtain ⟨past, v, hrun, hm⟩ := h
  have ho := hm.orderly
  obtain ⟨hr, hnext⟩ : w.ready = [] ∧ ∀ u, w.nextAlarm? = some u → t < u := by
    unfold step? at hs
    split at hs
    · cases hs
    · next hr =>
      split at hs
      · cases hs
      · refine ⟨hr, fun u hu => ?_⟩
        rw [hu] at hs
        simpa using hs
  refine ⟨_, _, elapse_run hrun hm hr hle fun u hu => ?_,
    (hm.visible.elapse t).congr rfl rfl rfl, ho.numbers, ho.below, ho.noErrand,
    fun x hx _ => ⟨(ho.tidy x hx (by simp)).ready, fun wait hwait => ?_⟩⟩
  · exact Nat.le_trans (Nat.le_of_lt (hnext u hu)) (Nat.le_max_right _ _)
  · refine ((ho.tidy x hx (by simp)).asleep wait hwait).elapse ?_
    rintro a rfl -
    obtain ⟨u, hu, hua⟩ := nextAlarm?_le hx hwait
    exact Nat.lt_of_lt_of_le (hnext u hu) hua

end Shown

variable {settings : Settings} {queues : PerCategory Queue}

/-- The program as it starts is shown by a run of the daemon that has done all its chores. -/
theorem start_shown (hq : Daemon.queues? config = some queues) :
    Shown settings.toRoutine config [] (Daemon.start config (Daemon.idle settings queues)) := by
  obtain ⟨queue, hb, rfl⟩ := Option.map_eq_some_iff.1 hq
  have hworkers : Shown settings.toRoutine config config.chores
      (Category.all.foldl (fun w c => w.spawn (.worker c false none))
        (Daemon.idle settings (.both queue))) := by
    -- the daemon starts with both workers there
    refine ⟨[], .start config queue, ⟨.start hb, .start hb⟩, ⟨⟨rfl, rfl, rfl, rfl, rfl, fun c => ?_,
      rfl⟩, rfl, rfl, rfl, nofun⟩, ?_⟩
    · refine .inr ⟨none, ?_, ?_⟩
      · cases c <;> rfl
      · cases c <;> exact .free
    · have hidle : (Daemon.idle settings (.both queue)).Orderly none :=
        ⟨.nil, by simp [Daemon.idle, World.start], by simp [Daemon.idle, World.start],
          by simp [Daemon.idle, World.start]⟩
      exact (hidle.spawn rfl).spawn rfl
  rw [Config.chores, List.append_assoc] at hworkers
  exact ((hworkers.startTimers.spawn rfl).spawn rfl).log _

/-- What the daemon comes to: it starts, makes steps, sleeps, is asked to shut
down and says something. -/
inductive Serving (config : Config) (settings : Settings) : World → Prop
  | start {queues : PerCategory Queue} (hq : Daemon.queues? config = some queues) :
      Serving config settings (Daemon.start config (Daemon.idle settings queues))
  | step {w w' : World} {horizon : Option Instant} (h : Serving config settings w)
      (hs : w.step? horizon = some w') : Serving config settings w'
  | pass {w : World} {t : Instant} (h : Serving config settings w) (hle : w.now ≤ t)
      (hs : w.step? (some t) = none) : Serving config settings { w with now := t }
  | shutdown {w : World} (h : Serving config settings w) : Serving config settings w.shutdown
  | log {w : World} (h : Serving config settings w) (e : Event) :
      Serving config settings (w.onCollector (·.log e))

/-- Whatever the program comes to is shown by a prompt run of the daemon, at the same
instant with the same collector. -/
theorem serving_shown (h : Serving config settings w) :
    Shown settings.toRoutine config [] w := by
  induction h with
  | start hq => exact start_shown hq
  | step _ hs ih => exact ih.step hs
  | pass _ hle hs ih => exact ih.pass hle hs
  | shutdown _ ih => exact ih.shutdown
  | log _ e ih => exact ih.log e

/-- No queue of the daemon ever holds more jobs than it may. -/
theorem serving_size_le (h : Serving config settings w) (c : Category) :
    (w.collector.queues.get c).size ≤ max 1 config.queueCapacity.toNat := by
  obtain ⟨past, v, hrun, hm⟩ := serving_shown h
  rw [← hm.visible.visible.collector]
  exact (Engine.line hrun.prompt c).size_le

/-! ### What the daemon is run by -/

theorem moveRun_now (w : World) (run : Run) : (w.moveRun run).2.now = w.now := by
  unfold moveRun
  split
  · rfl
  · rfl
  · rfl
  · dsimp only; split <;> rfl
  · rfl
  · dsimp only; split <;> rfl
  · rfl

theorem tick_now (w : World) (t : Target) : (w.tick t).2.now = w.now := by
  unfold tick
  dsimp only
  split <;> rfl

theorem moveWorker_now (w : World) (c : Category) (begun : Bool) (run : Option Run) :
    (w.moveWorker c begun run).2.now = w.now := by
  unfold moveWorker
  split
  · next run =>
    have hnow := moveRun_now w run
    split <;> next hm => rw [hm] at hnow; exact hnow
  · split
    · rfl
    split
    · rfl
    dsimp only
    split <;> rfl

theorem moveErrand_now (w : World) (run : Run) : (w.moveErrand run).2.now = w.now := by
  have hnow := moveRun_now w run
  unfold moveErrand
  split <;> next hm => rw [hm] at hnow; exact hnow

theorem moveTimer_now (w : World) (t : Target) (due : Option Instant) :
    (w.moveTimer t due).2.now = w.now := by
  unfold moveTimer
  split
  · split <;> rfl
  · split
    · rfl
    split
    · split
      · rfl
      · exact tick_now w t
    · rfl

theorem moveWatchdog_now (w : World) (id : JobId) (cycle : Option Nat) (timeout : Duration)
    (watch : Option Watch) : (w.moveWatchdog id cycle timeout watch).2.now = w.now := by
  unfold moveWatchdog
  split <;> split <;> rfl

theorem moveSampler_now (w : World) (due : Option Instant) (interval : Duration)
    (f : Option Instant → Task) (sample : Collector → Collector) :
    (w.moveSampler due interval f sample).2.now = w.now := by
  unfold moveSampler
  split
  · rfl
  split
  · rfl
  split
  · split <;> rfl
  · rfl

/-- Time stands still during a move. -/
theorem move_now (w : World) (task : Task) : (w.move task).2.now = w.now := by
  cases task with
  | worker c begun run => exact moveWorker_now w c begun run
  | errand run => exact moveErrand_now w run
  | timer t due => exact moveTimer_now w t due
  | watchdog id cycle timeout watch => exact moveWatchdog_now w id cycle timeout watch
  | depthSampler due => exact moveSampler_now w due _ _ _
  | taskSampler due => exact moveSampler_now w due _ _ _

theorem runMove_now (w : World) (number : Nat) : (w.runMove number).now = w.now := by
  unfold runMove
  split
  · rfl
  · next x _ =>
    have hnow := move_now w x.task
    split <;> next hm => rw [hm] at hnow; exact hnow

/-- A step does not pass the horizon. -/
theorem step?_now_le {t : Instant} (hle : w.now ≤ t) (hs : w.step? (some t) = some w') :
    w'.now ≤ t := by
  unfold step? at hs
  split at hs
  · next number rest _ =>
    cases hs
    exact (runMove_now { w with ready := rest } number).trans_le hle
  split at hs
  · cases hs
    exact hle
  split at hs
  · cases hs
  split at hs
  · next h =>
    cases hs
    exact Nat.max_le.2 ⟨hle, by simpa using h⟩
  · cases hs

theorem runWhile_now_le (more : World → Bool) {t : Instant} (fuel : Nat) (hle : w.now ≤ t) :
    (runWhile more (some t) fuel w).now ≤ t := by
  induction fuel generalizing w with
  | zero => exact hle
  | succ fuel ih =>
    unfold runWhile
    split
    · split
      · next hs => exact ih (step?_now_le hle hs)
      · exact hle
    · exact hle

/-! ### Running and stopping -/

section Keeps

variable {P : World → Prop}
  (hstep : ∀ {w w' : World} {horizon : Option Instant}, P w → w.step? horizon = some w' → P w')
  (hlog : ∀ {w : World} (e : Event), P w → P (w.onCollector (·.log e)))

include hstep

/-- What every step keeps is kept by running. -/
theorem runWhile_keeps (h : P w) (more : World → Bool) (horizon : Option Instant) (fuel : Nat) :
    P (runWhile more horizon fuel w) := by
  induction fuel generalizing w with
  | zero => exact h
  | succ fuel ih =>
    unfold runWhile
    split
    · split
      · next hs => exact ih (hstep h hs)
      · exact h
    · exact h

include hlog

/-- What every step and every remark keeps is true of the program at its end. -/
theorem stop_keeps (h : P w.shutdown) : P (Daemon.stop w) := by
  have hlogs : ∀ {w : World} (is : List Item), P w →
      P (w.onCollector fun s => is.foldl (fun s i => s.log (Daemon.summary i)) s) := by
    intro w is
    induction is generalizing w with
    | nil => exact id
    | cons i is ih => exact fun h => ih (hlog (Daemon.summary i) h)
  have hend := runWhile_keeps hstep (hlog .shutdownRequested h)
    (fun w => w.slots.any fun x => isAwaited x.task) none patience
  have hready := runWhile_keeps hstep hend (fun w => !w.ready.isEmpty) (some (runUntilNone
    isAwaited (w.shutdown.onCollector (·.log .shutdownRequested))).now) patience
  exact hlogs _ (hlogs _ (hlog (.coordinatorStopped _) hready))

end Keeps

namespace Serving

/-- The daemon may be run for some time, if that is enough steps. -/
theorem advance (h : Serving config settings w) (d : Duration)
    (hs : (World.runWhile (fun _ => true) (some (w.now + d.nanos)) patience w).step?
      (some (w.now + d.nanos)) = none) : Serving config settings (w.advance d) :=
  (runWhile_keeps .step h _ _ patience).pass
    (runWhile_now_le _ patience (Nat.le_add_right _ _)) hs

/-- The end of the daemon is one of the worlds it comes to. -/
theorem stop (h : Serving config settings w) : Serving config settings (Daemon.stop w) :=
  stop_keeps .step (fun e h => h.log e) h.shutdown

/-- A request for shutdown is not taken back. -/
theorem shutdown_of_step (h : Serving config settings w) (hf : w.collector.shutdown = true)
    {horizon : Option Instant} (hs : w.step? horizon = some w') :
    w'.collector.shutdown = true := by
  obtain ⟨past, v, hrun, hm⟩ := serving_shown h
  obtain ⟨acts, v', hrun', hm'⟩ := step?_run hrun hm hs
  rw [← hm.visible.visible.collector, Engine.shutdown_iff hrun.prompt] at hf
  obtain ⟨t, ht⟩ := hf
  rw [← hm'.visible.visible.collector, Engine.shutdown_iff hrun'.prompt]
  refine ⟨t, ?_⟩
  rw [Service.engineActs, List.filterMap_append]
  exact List.mem_append_right _ ht

theorem shutdown_of_stop (h : Serving config settings w) :
    (Daemon.stop w).collector.shutdown = true := by
  have hboth : Serving config settings (Daemon.stop w) ∧
      (Daemon.stop w).collector.shutdown = true :=
    stop_keeps (P := fun w => Serving config settings w ∧ w.collector.shutdown = true)
      (fun h hs => ⟨h.1.step hs, h.1.shutdown_of_step h.2 hs⟩) (fun e h => ⟨h.1.log e, h.2⟩)
      ⟨h.shutdown, rfl⟩
  exact hboth.2

end Serving

end World

end DiskWatch
