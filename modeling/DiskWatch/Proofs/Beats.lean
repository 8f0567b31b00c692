/-
DiskWatch/Proofs/Beats.lean

Moves of the running program as steps of the daemon.  The timers and the samplers
of a world are loops of the daemon.  Between two moves each of them waits or is
over, and those that wait are the tasks that are there (`Serves`).  A move of such
a task is nothing to see, a whole duty from one beat to the next, or its end.

Main result: whatever a world goes through in one move of any task, the daemon that
it shows goes through in a few steps (`move_attended`), and no time passes.
-/
import DiskWatch.Proofs.Moves

namespace DiskWatch

/-- The duty that a loop waits to do. -/
def Loop.waiting? (l : Loop) : Option Duty :=
  match l.stage with
  | .waiting => some l.duty
  | _ => none

namespace World

variable {w w' : World} {x : Slot} {task task' : Task} {r : Routine} {rest new : Multiset Task}
  {chores : List Chore} {v : Service} {d : Duty} {t : Target}

/-! ### What a world shows of a daemon -/

/-- A world with these tasks shows a daemon that has not returned and has these chores
left: it shows the engine of the daemon, and the loops that wait are the timers and
samplers that are there. -/
structure Serves (r : Routine) (chores : List Chore) (w : World) (tasks : Multiset Task)
    (v : Service) : Prop where
  visible : Shows r w tasks v.engine
  chores : v.chores = chores
  result : v.result = none
  waiting : (v.loops.filterMap Loop.waiting? : Multiset Duty) = tasks.filterMap dutyOf?
  idle : ∀ l ∈ v.loops, l.stage = .waiting ∨ l.stage = .over

theorem unseen_of_duty (hd : dutyOf? task = some d) : Unseen task := by
  cases task with
  | timer | depthSampler | taskSampler => exact ⟨fun _ => rfl, rfl⟩
  | worker | errand | watchdog => cases hd

theorem Unseen.asleep {wait : Wait} (ht : Unseen task) (w : World) : w.Asleep task wait := by
  cases task with
  | watchdog => cases ht.2
  | _ => trivial

namespace Serves

theorem congr (h : Serves r chores w rest v) (hset : w'.settings = w.settings)
    (hnow : w'.now = w.now) (hk : w'.collector = w.collector) : Serves r chores w' rest v :=
  ⟨h.visible.congr hset hnow hk, h.chores, h.result, h.waiting, h.idle⟩

/-- A task with a duty has a loop, which waits. -/
theorem loop (h : Serves r chores w (task ::ₘ rest) v) (hd : dutyOf? task = some d) :
    ∃ i : Nat, v.loops[i]? = some ⟨d, .waiting⟩ := by
  have hmem : d ∈ (v.loops.filterMap Loop.waiting? : Multiset Duty) := by
    rw [h.waiting, Multiset.filterMap_cons_some dutyOf? task rest hd]
    exact Multiset.mem_cons_self d _
  obtain ⟨⟨d', stage⟩, hl, hw⟩ := List.mem_filterMap.1 (Multiset.mem_coe.1 hmem)
  obtain ⟨i, hi⟩ := List.mem_iff_getElem?.1 hl
  cases stage with
  | waiting =>
    cases hw
    exact ⟨i, hi⟩
  | _ => cases hw

/-- A task that keeps its duty shows the same loops. -/
theorem waiting_of_duty (h : Serves r chores w (task ::ₘ rest) v) (hd : dutyOf? task = some d)
    (hd' : dutyOf? task' = some d) (hnew : new.filterMap dutyOf? = 0) :
    (v.loops.filterMap Loop.waiting? : Multiset Duty) =
      (task' ::ₘ (new + rest)).filterMap dutyOf? := by
  rw [h.waiting, Multiset.filterMap_cons_some dutyOf? task rest hd,
    Multiset.filterMap_cons_some dutyOf? task' (new + rest) hd', Multiset.filterMap_add, hnew,
    zero_add]

/-- A task that keeps its duty does nothing that is seen. -/
theorem stays (h : Serves r chores w (task ::ₘ rest) v) (hd : dutyOf? task = some d)
    (hd' : dutyOf? task' = some d) : Serves r chores w (task' ::ₘ rest) v := by
  have hwaiting := h.waiting_of_duty hd hd' (Multiset.filterMap_zero dutyOf?)
  rw [zero_add] at hwaiting
  refine ⟨?_, h.chores, h.result, hwaiting, h.idle⟩
  rw [Shows.cons_iff (unseen_of_duty hd')]
  exact (Shows.cons_iff (unseen_of_duty hd)).1 h.visible

/-- A task with a duty ends: it has seen that a shutdown was requested, or it ends
abnormally. -/
theorem ends (h : Serves r chores w (task ::ₘ rest) v) (hd : dutyOf? task = some d) :
    ∃ acts v', Leads (Service.Step r) v acts v' ∧ Service.Calm acts ∧
      Serves r chores w rest v' := by
  obtain ⟨i, hi⟩ := h.loop hd
  have hover : Serves r chores w rest { v with loops := v.loops.set i ⟨d, .over⟩ } := by
    refine ⟨(Shows.cons_iff (unseen_of_duty hd)).1 h.visible, h.chores, h.result, ?_, ?_⟩
    · have hset := Service.filterMap_set Loop.waiting? ⟨d, .over⟩ hi
      rw [h.waiting, Multiset.filterMap_cons_some dutyOf? task rest hd] at hset
      have hone : d ::ₘ rest.filterMap dutyOf? = rest.filterMap dutyOf? + {d} := by
        rw [add_comm]
        rfl
      exact add_right_cancel (hset.trans ((add_zero _).trans hone))
    · intro l hl
      rcases List.mem_or_eq_of_mem_set hl with hl | rfl
      · exact h.idle l hl
      · exact .inr rfl
  cases hf : v.engine.collector.shutdown with
  | true => exact ⟨[.stop i], _, .one (.stop hi hf), Service.calm_one nofun, hover⟩
  | false => exact ⟨[.fail i], _, .one (.fail hi), Service.calm_one nofun, hover⟩

end Serves

/-! ### Moves of any task -/

/-- What a move does to the slots of other tasks: it posts a watchdog, or nothing. -/
inductive Posts (w w' : World) : Multiset Task → Prop
  | nothing (ha : w.Alike w') : Posts w w' 0
  | watchdog {u : World} (ha : w.Alike u) (p : Wait → Bool) (id : JobId) (cycle : Option Nat)
      (timeout : Duration) (hu : w' = (u.wakeWhere p).spawn (.watchdog id cycle timeout none)) :
      Posts w w' {.watchdog id cycle timeout none}

namespace Posts

theorem orderly {moving : Option Nat} (hp : w.Posts w' new) (h : w.Orderly moving) :
    w'.Orderly moving := by
  cases hp with
  | nothing ha => exact h.alike ha
  | watchdog ha p id cycle timeout hu =>
    rw [hu]
    exact ((h.alike ha).wakeWhere p).spawn rfl

/-- A watchdog has no duty. -/
theorem duties_eq (hp : w.Posts w' new) : new.filterMap dutyOf? = 0 := by
  cases hp with
  | nothing => exact Multiset.filterMap_zero dutyOf?
  | watchdog => rfl

theorem tasks_eq (hp : w.Posts w' new) : w'.tasks = new + w.tasks := by
  cases hp with
  | nothing ha => rw [tasks, tasks, ha.slots, zero_add]
  | watchdog ha p id cycle timeout hu =>
    rw [hu, tasks_spawn, tasks_wakeWhere, Multiset.singleton_add, tasks, tasks, ha.slots]

/-- The slot of a task is still there while it moves. -/
theorem slot (hp : w.Posts w' new) (hx : x ∈ w.slots) :
    ∃ y ∈ w'.slots, y.number = x.number ∧ y.task = x.task := by
  cases hp with
  | nothing ha => exact ⟨x, ha.slots ▸ hx, rfl, rfl⟩
  | @watchdog u ha p id cycle timeout hu =>
    have hx' : x ∈ u.slots := ha.slots ▸ hx
    subst hu
    refine ⟨if x.wait.any p then { x with wait := none } else x, ?_, ?_, ?_⟩
    · exact List.mem_append_left _ (List.mem_map.2 ⟨x, hx', rfl⟩)
    · split <;> rfl
    · split <;> rfl

/-- Beside the task at move there are the tasks that were there and those that were posted. -/
theorem others_eq {moving : Option Nat} (hp : w.Posts w' new) (h : w.Orderly moving)
    (hx : x ∈ w.slots) : w'.others x.number = new + w.others x.number := by
  obtain ⟨y, hy, hnum, htask⟩ := hp.slot hx
  have hcons := tasks_eq_cons (hp.orderly h).numbers hy
  rw [hp.tasks_eq, tasks_eq_cons h.numbers hx, hnum, htask, Multiset.add_cons,
    Multiset.cons_inj_right] at hcons
  exact hcons.symm

end Posts

/-- After this move of a task the world shows a daemon some steps on. -/
structure Attended (r : Routine) (chores : List Chore) (v : Service) (rest : Multiset Task)
    (w w' : World) (task : Task) (m : Move) : Prop where
  proper : Proper w' task m
  leads : ∃ new acts v', Posts w w' new ∧ Leads (Service.Step r) v acts v' ∧
    Service.Calm acts ∧ Serves r chores w' (left m (new + rest)) v'

namespace Attended

theorem ofAlike {m : Move} (hm : Proper w' task m) (ha : w.Alike w')
    (hs : ∃ acts v', Leads (Service.Step r) v acts v' ∧ Service.Calm acts ∧
      Serves r chores w' (left m rest) v') : Attended r chores v rest w w' task m := by
  obtain ⟨acts, v', hleads, hcalm, hserves⟩ := hs
  refine ⟨hm, 0, acts, v', .nothing ha, hleads, hcalm, ?_⟩
  rw [zero_add]
  exact hserves

/-- A task that keeps its duty does nothing that is seen. -/
theorem ofStay {m : Move} (hm : Proper w task m) (hs : Serves r chores w (left m rest) v) :
    Attended r chores v rest w w task m :=
  .ofAlike hm (.refl w) ⟨[], v, .refl, Service.calm_nil, hs⟩

/-- A task that turns to its duty does all of it. -/
theorem ofBeat (h : Serves r chores w (task ::ₘ rest) v) (hd : dutyOf? task = some d)
    (hd' : dutyOf? task' = some d) (hf : w.collector.shutdown = false) (hp : Posts w w' new)
    {acts : List Engine.Act} {k : Engine} (hdone : d.Done acts)
    (hk : Leads (Engine.Step r) v.engine acts k) (hs : Shows r w' (new + rest) k)
    (he : isErrand task' = false) : Attended r chores v rest w w' task (.goOn task') := by
  obtain ⟨i, hi⟩ := h.loop hd
  have hf' : v.engine.collector.shutdown = false := h.visible.collector ▸ hf
  refine ⟨⟨he, hd'.trans hd.symm⟩, new, _, _, hp, Service.leads_of_duty hi hf' hdone hk, ?_, ?_,
    h.chores, h.result, h.waiting_of_duty hd hd' hp.duties_eq, h.idle⟩
  · intro e he t
    rcases List.mem_append.1 he with he | he
    · obtain ⟨a, -, rfl⟩ := List.mem_map.1 he
      exact nofun
    · rw [List.mem_singleton.1 he]
      exact nofun
  · exact (Shows.cons_iff (unseen_of_duty hd')).2 hs

end Attended

/-- A task without a duty keeps the loops as they are. -/
theorem filterMap_left {m : Move} (hm : Proper w task m) (hd : dutyOf? task = none)
    (rest : Multiset Task) : (left m rest).filterMap dutyOf? = rest.filterMap dutyOf? := by
  cases m with
  | goOn task' => exact Multiset.filterMap_cons_none task' rest (hm.2.trans hd)
  | wait task' wait => exact Multiset.filterMap_cons_none task' rest (hm.2.1.trans hd)
  | _ => rfl

/-- A worker or a watchdog. -/
theorem Followed.attended {m : Move} (h : Serves r chores w (task ::ₘ rest) v)
    (hd : dutyOf? task = none) (hf : Followed r v.engine rest w w' task m) :
    Attended r chores v rest w w' task m := by
  obtain ⟨hproper, ha, acts, k, hleads, hshows⟩ := hf
  refine .ofAlike hproper ha ⟨_, _, Service.leads_of_own hleads, ?_, hshows, h.chores, h.result,
    ?_, h.idle⟩
  · intro e he t
    obtain ⟨a, ha, rfl⟩ := List.mem_map.1 he
    rintro ⟨⟩
    exact hleads.forall_mem (p := fun a => ∀ t, a ≠ .elapse t) (fun hs => hs.still) _ ha t rfl
  · rw [filterMap_left hproper hd, h.waiting, Multiset.filterMap_cons_none task rest hd]

theorem shutdown_tick (k : Collector) (t : Target) (clock : Int) :
    (k.tick t clock).2.shutdown = k.shutdown := by
  unfold Collector.tick
  dsimp only
  split
  · next hr => exact (congrArg (fun p => p.2.shutdown) hr).symm
  · next hr => exact (congrArg (fun p => p.2.shutdown) hr).symm
  · next hr =>
    have hk := (congrArg (fun p => p.2.shutdown) hr).symm
    split
    · next he => exact (congrArg (fun p => p.2.shutdown) he).symm.trans hk
    · next he => exact (congrArg (fun p => p.2.shutdown) he).symm.trans hk

/-- A timer at its beat. -/
theorem tick_attended {due next : Option Instant} (h : Serves r chores w (.timer t due ::ₘ rest) v)
    (hf : w.collector.shutdown = false) :
    Attended r chores v rest w (w.tick t).2 (.timer t due) (.goOn (.timer t next)) := by
  rcases ht : w.collector.tick t w.now with ⟨outcome, k⟩
  obtain ⟨acts, hdone, hleads⟩ := Engine.leads_of_tick (r := r) (h.visible.collector ▸ ht)
  have ha : w.Alike { w with collector := k } := by
    have hk := shutdown_tick w.collector t w.now
    rw [ht] at hk
    exact .ofCollector hk
  have hs : Shows r w rest v.engine := (Shows.cons_iff (unseen_of_duty rfl)).1 h.visible
  cases outcome with
  | enqueued job =>
    have hw : (w.tick t).2 = ({ w with collector := k }.wakeWhere (Wait.isQueue job.category)).spawn
        (.watchdog job.id job.cycle job.timeout none) := by rw [tick, ht]
    have hp : Posts w (w.tick t).2 _ := .watchdog ha _ job.id job.cycle job.timeout hw
    refine .ofBeat h rfl rfl hf hp hdone hleads ?_ rfl
    rw [hw, Multiset.singleton_add]
    refine hs.sentriesTo (fun c => Multiset.filterMap_cons_none _ _ rfl) ?_ rfl rfl
    rw [Multiset.filterMap_cons_some watchOf? _ rest rfl, ← hs.sentries]
    exact Multiset.map_cons viewOf ⟨job, none⟩ v.engine.sentries
  | _ =>
    have hw : (w.tick t).2 = { w with collector := k } := by rw [tick, ht]
    refine .ofBeat h rfl rfl hf (.nothing (hw ▸ ha)) hdone hleads ?_ rfl
    rw [hw, zero_add]
    exact hs.alike ha

theorem moveTimer_attended {due : Option Instant} {m : Move}
    (h : Serves r chores w (.timer t due ::ₘ rest) v) (hm : w.moveTimer t due = (m, w')) :
    Attended r chores v rest w w' (.timer t due) m := by
  have hover : Attended r chores v rest w w.endTimer (.timer t due) .over := by
    obtain ⟨acts, v', hleads, hcalm, hserves⟩ := h.ends rfl
    exact .ofAlike trivial ⟨rfl, rfl, rfl, rfl, rfl, rfl⟩
      ⟨acts, v', hleads, hcalm, hserves.congr rfl rfl rfl⟩
  unfold moveTimer at hm
  cases due with
  | none =>
    dsimp only at hm
    split at hm <;> cases hm
    · exact hover
    · exact .ofStay ⟨rfl, rfl⟩ (h.stays rfl rfl)
  | some due =>
    dsimp only at hm
    split at hm
    · cases hm
      exact hover
    · next hf =>
      split at hm
      · split at hm <;> cases hm
        · exact hover
        · exact tick_attended h (Bool.eq_false_iff.2 hf)
      · cases hm
        exact .ofStay ⟨rfl, rfl, trivial⟩ h

theorem moveSampler_attended {due : Option Instant} {interval : Duration}
    {f : Option Instant → Task} {sample : Collector → Collector}
    (h : Serves r chores w (f due ::ₘ rest) v) (hf : ∀ due, dutyOf? (f due) = some d)
    (he : ∀ due, isErrand (f due) = false)
    (hshut : (sample w.collector).shutdown = w.collector.shutdown) {acts : List Engine.Act}
    (hdone : d.Done acts) (hleads : Leads (Engine.Step r) v.engine acts
      { v.engine with collector := sample v.engine.collector })
    {m : Move} (hm : w.moveSampler due interval f sample = (m, w')) :
    Attended r chores v rest w w' (f due) m := by
  have hkeep : ∀ due', dutyOf? (f due') = dutyOf? (f due) := fun due' => by rw [hf, hf]
  unfold moveSampler at hm
  cases due with
  | none =>
    cases hm
    exact .ofStay ⟨he _, hkeep _⟩ (h.stays (hf _) (hf _))
  | some due =>
    dsimp only at hm
    split at hm
    · cases hm
      exact .ofAlike trivial (.refl w) (h.ends (hf _))
    · next hfalse =>
      split at hm
      · split at hm <;> cases hm
        · exact .ofAlike trivial (.refl w) (h.ends (hf _))
        · have ha : w.Alike (w.onCollector sample) := .ofCollector hshut
          have hs : Shows r w rest v.engine := (Shows.cons_iff (unseen_of_duty (hf _))).1 h.visible
          rw [h.visible.collector] at hleads
          exact .ofBeat h (hf _) (hf _) (Bool.eq_false_iff.2 hfalse) (.nothing ha) hdone hleads
            ((zero_add rest).symm ▸ hs.alike ha) (he _)
      · cases hm
        exact .ofStay ⟨he _, hkeep _, (unseen_of_duty (hf _)).asleep w⟩ h

/-- One move of any task but an errand. -/
theorem move_attended (h : Serves r chores w (task ::ₘ rest) v) (he : isErrand task = false)
    {m : Move} (hm : w.move task = (m, w')) : Attended r chores v rest w w' task m := by
  cases task with
  | worker c begun run => exact (moveWorker_followed h.visible hm).attended h rfl
  | errand run => cases he
  | timer t due => exact moveTimer_attended h hm
  | watchdog id cycle timeout watch => exact (moveWatchdog_followed h.visible hm).attended h rfl
  | depthSampler due =>
    obtain ⟨acts, hdone, hleads⟩ := Engine.leads_of_sampleDepths (r := r) h.visible.sample
    exact moveSampler_attended h (fun _ => rfl) (fun _ => rfl) rfl hdone hleads hm
  | taskSampler due =>
    have hdone : Duty.countTasks.Done _ := .one (.countTasks w.slots.length)
    have hleads : Leads (Engine.Step r) v.engine _ _ := .one (.countTasks v.engine w.slots.length)
    exact moveSampler_attended h (fun _ => rfl) (fun _ => rfl) rfl hdone hleads hm

end World

end DiskWatch
