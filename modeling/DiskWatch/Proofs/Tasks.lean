/-
DiskWatch/Proofs/Tasks.lean

What the tasks of the running program show of an engine.  A world of tasks shows
an engine at the same instant with the same collector: its workers are at the
stages that their tasks have reached, and there is a watchdog for each watchdog
task (`Shows`).  The timers and the samplers are not seen between two moves.

A world in good order has one slot for each number, and every slot but that of
the task at move is ready or waits as it should (`Orderly`).
-/
import DiskWatch.Proofs.HandOver
import DiskWatch.World

namespace DiskWatch.World

variable {w w' : World} {x : Slot} {task : Task} {number : Nat}

/-! ### Slots -/

/-- The tasks of a world. -/
def tasks (w : World) : Multiset Task := (w.slots.map Slot.task : List Task)

/-- The tasks of a world but those of a number. -/
def others (w : World) (number : Nat) : Multiset Task :=
  ((w.slots.filter (·.number != number)).map Slot.task : List Task)

theorem filter_number (hn : (w.slots.map Slot.number).Nodup) (hx : x ∈ w.slots) :
    ∃ front back, w.slots = front ++ x :: back ∧
      (∀ y ∈ front ++ back, y.number ≠ x.number) ∧
      w.slots.filter (·.number != x.number) = front ++ back := by
  obtain ⟨front, back, hsplit⟩ := List.append_of_mem hx
  rw [hsplit, List.map_append, List.map_cons, List.nodup_middle, List.nodup_cons] at hn
  have hne : ∀ y ∈ front ++ back, y.number ≠ x.number := by
    intro y hy he
    rw [← List.map_append] at hn
    exact hn.1 (he ▸ List.mem_map_of_mem hy)
  refine ⟨front, back, hsplit, hne, ?_⟩
  rw [hsplit, List.filter_append, List.filter_cons_of_neg (by simp), ← List.filter_append,
    List.filter_eq_self]
  intro y hy
  exact bne_iff_ne.2 (hne y hy)

/-- The tasks are the one of a slot and the others. -/
theorem tasks_eq_cons (hn : (w.slots.map Slot.number).Nodup) (hx : x ∈ w.slots) :
    w.tasks = x.task ::ₘ w.others x.number := by
  obtain ⟨front, back, hsplit, -, hfilter⟩ := filter_number hn hx
  rw [tasks, others, hfilter, hsplit, List.map_append, List.map_cons, List.map_append,
    Multiset.cons_coe, Multiset.coe_eq_coe]
  exact List.perm_middle

theorem tasks_setSlot (hn : (w.slots.map Slot.number).Nodup) (hx : x ∈ w.slots) (task : Task)
    (wait : Option Wait) :
    (w.setSlot x.number task wait).tasks = task ::ₘ w.others x.number := by
  obtain ⟨front, back, hsplit, hne, hfilter⟩ := filter_number hn hx
  have hkeep : ∀ l ⊆ front ++ back, (l.map fun y : Slot =>
      if y.number = x.number then { y with task := task, wait := wait } else y) = l := by
    intro l hl
    calc
      _ = l.map id := List.map_congr_left fun y hy => if_neg (hne y (hl hy))
      _ = l := List.map_id l
  rw [tasks, others, hfilter, setSlot, hsplit]
  simp only [List.map_append, List.map_cons, if_true]
  rw [hkeep front (List.subset_append_left _ _), hkeep back (List.subset_append_right _ _),
    Multiset.cons_coe, Multiset.coe_eq_coe]
  exact List.perm_middle

theorem tasks_spawn (w : World) (task : Task) : (w.spawn task).tasks = task ::ₘ w.tasks := by
  rw [tasks, spawn, List.map_append, ← Multiset.coe_add, Multiset.add_comm]
  rfl

theorem map_wake {α : Type} (f : Slot → α) (hf : ∀ x wait, f { x with wait := wait } = f x)
    (w : World) (p : Wait → Bool) : (w.wakeWhere p).slots.map f = w.slots.map f := by
  rw [wakeWhere, List.map_map]
  refine List.map_congr_left fun x _ => ?_
  rw [Function.comp_apply]
  split
  · exact hf x none
  · rfl

theorem tasks_wakeWhere (w : World) (p : Wait → Bool) : (w.wakeWhere p).tasks = w.tasks := by
  rw [tasks, map_wake Slot.task (fun _ _ => rfl)]; rfl

/-! ### Worlds in good order -/

/-- A watchdog that waits has its alarm set for its next look, which is still to come. -/
def Asleep (w : World) (task : Task) (wait : Wait) : Prop :=
  match task with
  | .watchdog _ _ _ watch => ∃ v, watch = some v ∧ wait = w.beatWait v.due ∧
      w.collector.shutdown = false ∧ w.now < w.settings.clock.alarm v.due
  | _ => True

/-- A slot whose task is ready if it waits for nothing, and waits as it should. -/
structure Tidy (w : World) (x : Slot) : Prop where
  ready : x.wait = none → x.number ∈ w.ready
  asleep : ∀ wait, x.wait = some wait → w.Asleep x.task wait

/-- A world in good order: the numbers of its slots differ, no task is an errand, and
every slot is tidy but that of the task at move. -/
structure Orderly (w : World) (moving : Option Nat) : Prop where
  numbers : (w.slots.map Slot.number).Nodup
  below : ∀ x ∈ w.slots, x.number < w.spawned
  noErrand : ∀ x ∈ w.slots, isErrand x.task = false
  tidy : ∀ x ∈ w.slots, moving ≠ some x.number → w.Tidy x

/-- A world that differs from another one beside the tasks and the clock. -/
structure Alike (w w' : World) : Prop where
  slots : w'.slots = w.slots
  spawned : w'.spawned = w.spawned
  ready : w'.ready = w.ready
  now : w'.now = w.now
  settings : w'.settings = w.settings
  shutdown : w'.collector.shutdown = w.collector.shutdown

theorem Alike.refl (w : World) : w.Alike w := ⟨rfl, rfl, rfl, rfl, rfl, rfl⟩

theorem Alike.ofCollector {k : Collector} (hk : k.shutdown = w.collector.shutdown) :
    w.Alike { w with collector := k } := ⟨rfl, rfl, rfl, rfl, rfl, hk⟩

theorem Asleep.alike {wait : Wait} (h : w.Asleep task wait) (ha : w.Alike w') :
    w'.Asleep task wait := by
  cases task with
  | watchdog =>
    obtain ⟨v, hv, hbeat, hf, hlt⟩ := h
    refine ⟨v, hv, ?_, ha.shutdown ▸ hf, ?_⟩
    · rw [hbeat, beatWait, beatWait, ha.settings]
    · rw [ha.now, ha.settings]; exact hlt
  | _ => trivial

namespace Orderly

variable {moving : Option Nat}

theorem alike (h : w.Orderly moving) (ha : w.Alike w') : w'.Orderly moving := by
  refine ⟨ha.slots ▸ h.numbers, fun x hx => ?_, fun x hx => ?_, fun x hx hm => ?_⟩
  · rw [ha.spawned]; exact h.below x (ha.slots ▸ hx)
  · exact h.noErrand x (ha.slots ▸ hx)
  · have ht := h.tidy x (ha.slots ▸ hx) hm
    exact ⟨fun hw => ha.ready ▸ ht.ready hw, fun wait hwait => (ht.asleep wait hwait).alike ha⟩

theorem spawn (h : w.Orderly moving) (ht : isErrand task = false) :
    (w.spawn task).Orderly moving := by
  have hcases : ∀ x ∈ (w.spawn task).slots, x ∈ w.slots ∨ x = ⟨w.spawned, task, none⟩ :=
    fun x hx => (List.mem_append.1 hx).imp_right List.mem_singleton.1
  refine ⟨?_, fun x hx => ?_, fun x hx => ?_, fun x hx hm => ?_⟩
  · show ((w.slots ++ [(⟨w.spawned, task, none⟩ : Slot)]).map Slot.number).Nodup
    rw [List.map_append, List.map_singleton, ← List.concat_eq_append]
    -- every number in use is below the new one
    refine List.Nodup.concat (fun hmem => ?_) h.numbers
    obtain ⟨y, hy, hnum⟩ := List.mem_map.1 hmem
    exact Nat.lt_irrefl _ (hnum ▸ h.below y hy)
  · rcases hcases x hx with hx | rfl
    · exact Nat.lt_succ_of_lt (h.below x hx)
    · exact Nat.lt_succ_self _
  · rcases hcases x hx with hx | rfl
    · exact h.noErrand x hx
    · exact ht
  · rcases hcases x hx with hx | rfl
    · have htidy := h.tidy x hx hm
      exact ⟨fun hw => List.mem_append_left _ (htidy.ready hw), htidy.asleep⟩
    · refine ⟨fun _ => List.mem_append_right _ (List.mem_singleton_self _), fun _ hwait => ?_⟩
      cases hwait

/-- It is enough that the slots that are not waked are tidy. -/
theorem ofWake (hn : (w.slots.map Slot.number).Nodup) (hb : ∀ x ∈ w.slots, x.number < w.spawned)
    (he : ∀ x ∈ w.slots, isErrand x.task = false) (p : Wait → Bool)
    (ht : ∀ x ∈ w.slots, x.wait.any p = false → moving ≠ some x.number → w.Tidy x) :
    (w.wakeWhere p).Orderly moving := by
  have hcases : ∀ x ∈ (w.wakeWhere p).slots, x ∈ w.slots ∧ x.wait.any p = false ∨
      ∃ y ∈ w.slots, y.wait.any p = true ∧ x = { y with wait := none } := by
    intro x hx
    obtain ⟨y, hy, rfl⟩ := List.mem_map.1 hx
    by_cases hp : y.wait.any p = true
    · exact .inr ⟨y, hy, hp, if_pos hp⟩
    · rw [if_neg hp]
      exact .inl ⟨hy, Bool.eq_false_iff.2 hp⟩
  refine ⟨?_, fun x hx => ?_, fun x hx => ?_, fun x hx hm => ?_⟩
  · rw [map_wake Slot.number (fun _ _ => rfl)]
    exact hn
  · rcases hcases x hx with ⟨hx, -⟩ | ⟨y, hy, -, rfl⟩
    · exact hb x hx
    · exact hb y hy
  · rcases hcases x hx with ⟨hx, -⟩ | ⟨y, hy, -, rfl⟩
    · exact he x hx
    · exact he y hy
  · rcases hcases x hx with ⟨hx, hp⟩ | ⟨y, hy, hp, rfl⟩
    · have htidy := ht x hx hp hm
      exact ⟨fun hw => List.mem_append_left _ (htidy.ready hw), htidy.asleep⟩
    · refine ⟨fun _ => List.mem_append_right _ ?_, fun _ hwait => ?_⟩
      · exact List.mem_map.2 ⟨y, List.mem_filter.2 ⟨hy, hp⟩, rfl⟩
      · cases hwait

theorem wakeWhere (h : w.Orderly moving) (p : Wait → Bool) : (w.wakeWhere p).Orderly moving :=
  ofWake h.numbers h.below h.noErrand p fun x hx _ => h.tidy x hx

/-- The task at move goes on or waits. -/
theorem setSlot (h : w.Orderly (some number)) {wait : Option Wait} {ready : List Nat}
    (ht : isErrand task = false) (hr : w.ready ⊆ ready) (hn : wait = none → number ∈ ready)
    (ha : ∀ wt, wait = some wt → w.Asleep task wt) :
    Orderly { w.setSlot number task wait with ready := ready } none := by
  have hcases : ∀ x ∈ (w.setSlot number task wait).slots, x ∈ w.slots ∧ x.number ≠ number ∨
      x.number = number ∧ x.task = task ∧ x.wait = wait ∧ ∃ y ∈ w.slots, y.number = number := by
    intro x hx
    obtain ⟨y, hy, rfl⟩ := List.mem_map.1 hx
    by_cases hne : y.number = number
    · rw [if_pos hne]
      exact .inr ⟨hne, rfl, rfl, y, hy, hne⟩
    · rw [if_neg hne]
      exact .inl ⟨hy, hne⟩
  refine ⟨?_, fun x hx => ?_, fun x hx => ?_, fun x hx _ => ?_⟩
  · have hsame : (w.setSlot number task wait).slots.map Slot.number = w.slots.map Slot.number := by
      rw [World.setSlot, List.map_map]
      refine List.map_congr_left fun x _ => ?_
      rw [Function.comp_apply]
      split <;> rfl
    exact hsame ▸ h.numbers
  · rcases hcases x hx with ⟨hx, -⟩ | ⟨hnum, -, -, y, hy, hy'⟩
    · exact h.below x hx
    · show x.number < w.spawned
      rw [hnum, ← hy']
      exact h.below y hy
  · rcases hcases x hx with ⟨hx, -⟩ | ⟨-, htask, -⟩
    · exact h.noErrand x hx
    · exact htask ▸ ht
  · rcases hcases x hx with ⟨hx, hne⟩ | ⟨hnum, htask, hwait, -⟩
    · have htidy := h.tidy x hx fun he => hne (Option.some.inj he).symm
      exact ⟨fun hw => hr (htidy.ready hw), htidy.asleep⟩
    · refine ⟨fun hw => ?_, fun wt hwt => ?_⟩
      · rw [hnum]; exact hn (hwait ▸ hw)
      · rw [htask]; exact ha wt (hwait ▸ hwt)

/-- The task at move is over. -/
theorem remove (h : w.Orderly (some number)) :
    Orderly { w with slots := w.slots.filter (·.number != number) } none := by
  refine ⟨?_, fun x hx => ?_, fun x hx => ?_, fun x hx _ => ?_⟩
  · exact (List.filter_sublist.map Slot.number).nodup h.numbers
  · exact h.below x (List.mem_of_mem_filter hx)
  · exact h.noErrand x (List.mem_of_mem_filter hx)
  · have hne : x.number ≠ number := bne_iff_ne.1 (List.mem_filter.1 hx).2
    have htidy := h.tidy x (List.mem_of_mem_filter hx) fun he => hne (Option.some.inj he).symm
    exact ⟨htidy.ready, htidy.asleep⟩

end Orderly

/-! ### What a world shows -/

/-- What the worker of a category is at, for a task of this worker. -/
def workOf? (c : Category) : Task → Option (Option Run)
  | .worker d _ run => if d = c then some run else none
  | _ => none

/-- What there is to see of a watchdog. -/
abbrev View := JobId × Option Nat × Duration × Option Watch

/-- What there is to see of a task that is a watchdog. -/
def watchOf? : Task → Option View
  | .watchdog id cycle timeout watch => some (id, cycle, timeout, watch)
  | _ => none

/-- A task that is neither a worker nor a watchdog. -/
def Unseen (task : Task) : Prop := (∀ c, workOf? c task = none) ∧ watchOf? task = none

/-- What there is to see of a watchdog of an engine. -/
def viewOf (x : Sentry) : View := (x.job.id, x.job.cycle, x.job.timeout, x.watch)

/-- The stage of a worker that is at a job or free. -/
inductive Stands : Option Run → WorkerStage → Prop
  | free : Stands none .free
  | going (job : Job) (span : Nat) (rest : Activity (Except Error Measurement)) :
      Stands (some ⟨job, span, .going rest⟩) (.measuring job span rest)
  | calling (job : Job) (span : Nat) (c : Call)
      (next : Except Error String → Activity (Except Error Measurement)) :
      Stands (some ⟨job, span, .calling c next⟩) (.measuring job span (.call c next))
  | pausing (job : Job) (span : Nat) (wake : Instant) (length : Duration)
      (next : Bool → Activity (Except Error Measurement)) :
      Stands (some ⟨job, span, .pausing wake next⟩) (.measuring job span (.pause length next))

/-- A world with these tasks shows an engine with no tick under way: it has the same
collector at the same instant, a worker has stopped or is at what its one task is at,
and the watchdogs are those of the tasks. -/
structure Shows (r : Routine) (w : World) (tasks : Multiset Task) (s : Engine) : Prop where
  routine : w.settings.toRoutine = r
  now : s.now = w.now
  collector : s.collector = w.collector
  ticks : s.ticks = 0
  sample : s.sample = none
  workers : ∀ c, tasks.filterMap (workOf? c) = 0 ∧ s.worker c = .stopped ∨
    ∃ run, tasks.filterMap (workOf? c) = {run} ∧ Stands run (s.worker c)
  sentries : s.sentries.map viewOf = tasks.filterMap watchOf?

variable {r : Routine} {rest : Multiset Task} {s : Engine} {c : Category} {begun : Bool}
  {run : Option Run}

namespace Shows

/-- Unseen tasks make no difference. -/
theorem cons_iff (ht : Unseen task) : Shows r w (task ::ₘ rest) s ↔ Shows r w rest s := by
  have hrest : ∀ c, (task ::ₘ rest).filterMap (workOf? c) = rest.filterMap (workOf? c) :=
    fun c => Multiset.filterMap_cons_none _ _ (ht.1 c)
  have hviews : (task ::ₘ rest).filterMap watchOf? = rest.filterMap watchOf? :=
    Multiset.filterMap_cons_none _ _ ht.2
  constructor
  · intro h
    exact ⟨h.routine, h.now, h.collector, h.ticks, h.sample,
      fun c => hrest c ▸ h.workers c, hviews ▸ h.sentries⟩
  · intro h
    refine ⟨h.routine, h.now, h.collector, h.ticks, h.sample, fun c => ?_, ?_⟩
    · rw [hrest]; exact h.workers c
    · rw [hviews]; exact h.sentries

/-- The worker that a task is of has no other task and stands where the task is. -/
theorem worker (h : Shows r w (.worker c begun run ::ₘ rest) s) :
    rest.filterMap (workOf? c) = 0 ∧ Stands run (s.worker c) := by
  have hcons : (Task.worker c begun run ::ₘ rest).filterMap (workOf? c) =
      run ::ₘ rest.filterMap (workOf? c) := Multiset.filterMap_cons_some _ _ _ (if_pos rfl)
  rcases h.workers c with ⟨hnone, -⟩ | ⟨only, honly, hstands⟩
  · rw [hcons] at hnone
    exact absurd hnone (Multiset.cons_ne_zero)
  · rw [hcons, ← Multiset.cons_zero, Multiset.cons_eq_cons] at honly
    rcases honly with ⟨rfl, hrest⟩ | ⟨-, _, -, hzero⟩
    · exact ⟨hrest, hstands⟩
    · exact absurd hzero.symm Multiset.cons_ne_zero

/-- What one worker does is not seen at the other one. -/
theorem otherWorker (h : Shows r w (.worker c begun run ::ₘ rest) s) {d : Category} (hd : d ≠ c)
    (stage : WorkerStage) :
    rest.filterMap (workOf? d) = 0 ∧ (s.workers.set c stage).get d = .stopped ∨
      ∃ run', rest.filterMap (workOf? d) = {run'} ∧
        Stands run' ((s.workers.set c stage).get d) := by
  have hwork : (Task.worker c begun run ::ₘ rest).filterMap (workOf? d) =
      rest.filterMap (workOf? d) := Multiset.filterMap_cons_none _ _ (if_neg (Ne.symm hd))
  rw [PerCategory.get_set_of_ne _ _ hd, ← hwork]
  exact h.workers d

theorem views (h : Shows r w (task ::ₘ rest) s) (hd : watchOf? task = none) :
    s.sentries.map viewOf = rest.filterMap watchOf? := by
  rw [h.sentries, Multiset.filterMap_cons_none _ _ hd]

/-- A worker goes on to another stage. -/
theorem workerTo (h : Shows r w (.worker c begun run ::ₘ rest) s) (begun' : Bool)
    {run' : Option Run} {stage : WorkerStage} (hst : Stands run' stage) (ha : w.Alike w') :
    Shows r w' (.worker c begun' run' ::ₘ rest)
      { s with collector := w'.collector, workers := s.workers.set c stage } := by
  refine ⟨ha.settings ▸ h.routine, h.now.trans ha.now.symm, rfl, h.ticks, h.sample, fun d => ?_, ?_⟩
  · by_cases hd : d = c
    · subst hd
      refine .inr ⟨run', ?_, ?_⟩
      · rw [Multiset.filterMap_cons_some (workOf? d) (.worker d begun' run') rest (if_pos rfl),
          h.worker.1]
        rfl
      · rw [Engine.worker, PerCategory.get_set]; exact hst
    · rw [Multiset.filterMap_cons_none (.worker c begun' run') rest (if_neg (Ne.symm hd))]
      exact h.otherWorker hd stage
  · rw [Multiset.filterMap_cons_none (.worker c begun' run') rest rfl]
    exact h.views rfl

/-- A worker stops, and its task is over. -/
theorem workerStops (h : Shows r w (.worker c begun run ::ₘ rest) s) (ha : w.Alike w') :
    Shows r w' rest
      { s with collector := w'.collector, workers := s.workers.set c .stopped } := by
  refine ⟨ha.settings ▸ h.routine, h.now.trans ha.now.symm, rfl, h.ticks, h.sample, fun d => ?_,
    h.views rfl⟩
  by_cases hd : d = c
  · subst hd
    exact .inl ⟨h.worker.1, PerCategory.get_set _ _ _⟩
  · exact h.otherWorker hd .stopped

/-- What is shown does not depend on who waits for what. -/
theorem congr (h : Shows r w rest s) (hset : w'.settings = w.settings)
    (hnow : w'.now = w.now) (hk : w'.collector = w.collector) : Shows r w' rest s :=
  ⟨hset ▸ h.routine, h.now.trans hnow.symm, h.collector.trans hk.symm, h.ticks, h.sample,
    h.workers, h.sentries⟩

/-- Where only the collector changes, the tasks stay as they are. -/
theorem alike (h : Shows r w rest s) (ha : w.Alike w') :
    Shows r w' rest { s with collector := w'.collector } :=
  ⟨ha.settings ▸ h.routine, h.now.trans ha.now.symm, rfl, h.ticks, h.sample, h.workers, h.sentries⟩

/-- A watchdog task is a watchdog of the engine. -/
theorem sentry {id : JobId} {cycle : Option Nat} {timeout : Duration} {watch : Option Watch}
    (h : Shows r w (.watchdog id cycle timeout watch ::ₘ rest) s) :
    ∃ job others, s.sentries = ⟨job, watch⟩ ::ₘ others ∧ job.id = id ∧ job.cycle = cycle ∧
      job.timeout = timeout ∧ others.map viewOf = rest.filterMap watchOf? := by
  have hviews := h.sentries
  rw [Multiset.filterMap_cons_some watchOf? (.watchdog id cycle timeout watch) rest rfl] at hviews
  obtain ⟨x, hx, hview⟩ := Multiset.mem_map.1 (hviews ▸ Multiset.mem_cons_self _ _)
  obtain ⟨others, hs⟩ := Multiset.exists_cons_of_mem hx
  obtain ⟨job, seen⟩ := x
  rw [hs, Multiset.map_cons, hview, Multiset.cons_inj_right] at hviews
  cases hview
  exact ⟨job, others, hs, rfl, rfl, rfl, hviews⟩

/-- The watchdogs are those of the tasks again after a change to both. -/
theorem sentriesTo (h : Shows r w rest s) {tasks : Multiset Task} {sentries : Multiset Sentry}
    (hw : ∀ c, tasks.filterMap (workOf? c) = rest.filterMap (workOf? c))
    (hs : sentries.map viewOf = tasks.filterMap watchOf?) (hset : w'.settings = w.settings)
    (hnow : w'.now = w.now) :
    Shows r w' tasks { s with collector := w'.collector, sentries := sentries } := by
  refine ⟨hset ▸ h.routine, h.now.trans hnow.symm, rfl, h.ticks, h.sample, fun d => ?_, hs⟩
  rw [hw d]
  exact h.workers d

variable {job : Job} {watch : Option Watch} {others : Multiset Sentry}

/-- A watchdog goes on with another watch. -/
theorem sentryTo (h : Shows r w (.watchdog job.id job.cycle job.timeout watch ::ₘ rest) s)
    (hviews : others.map viewOf = rest.filterMap watchOf?) (watch' : Option Watch) :
    Shows r w (.watchdog job.id job.cycle job.timeout watch' ::ₘ rest)
      { s with sentries := ⟨job, watch'⟩ ::ₘ others } := by
  have hviews' : (⟨job, watch'⟩ ::ₘ others).map viewOf = (Task.watchdog job.id job.cycle
      job.timeout watch' ::ₘ rest).filterMap watchOf? := by
    rw [Multiset.map_cons, hviews]
    exact (Multiset.filterMap_cons_some watchOf? _ rest rfl).symm
  have hshows := h.sentriesTo (fun c => (Multiset.filterMap_cons_none _ _ rfl).trans
    (Multiset.filterMap_cons_none _ _ rfl).symm) hviews' rfl rfl
  rw [← h.collector] at hshows
  exact hshows

/-- A watchdog closes, and its task is over. -/
theorem sentryOver (h : Shows r w (.watchdog job.id job.cycle job.timeout watch ::ₘ rest) s)
    (hviews : others.map viewOf = rest.filterMap watchOf?) (ha : w.Alike w') :
    Shows r w' rest { s with collector := w'.collector, sentries := others } :=
  h.sentriesTo (fun _ => (Multiset.filterMap_cons_none _ _ rfl).symm) hviews ha.settings ha.now

end Shows

end DiskWatch.World
