/-
DiskWatch/Proofs/Turns.lean

The tasks of the program taking turns, in any order.  In `Turns` any ready task
may move next, waits may end at any time, new tasks may come up and the state
that tasks share may change in any way that keeps the registered targets; the
clock moves only when no task is ready, and not past an alarm.  The history of
such a run tells the ticks of every timer and the requests for shutdown.

Whoever moves leaves the clock and the tasks of others alone (`quiet_move`), so a
timer has nothing to fear from other tasks but that they take their turn.  The tasks
are told apart by their numbers, in the program from its start on (`numbered_staffed`).

Main result: whatever the program comes to, its tasks have come to by taking
turns (`Serving.turns`).
-/
import DiskWatch.Proofs.Admission
import DiskWatch.Proofs.Schedule

namespace DiskWatch

/-! ### What the tasks leave of the shared state -/

namespace Collector

variable {k k' k'' : Collector} {c : Category} {name : String}

/-- Whether a category has a record of a target. -/
def Registered (k : Collector) (c : Category) (name : String) : Prop :=
  ((k.ledgers.get c).item? name).isSome

/-- A state with all targets of another one, where shutdown was requested if and only
if it was there. -/
structure Spares (k k' : Collector) : Prop where
  shutdown : k'.shutdown = k.shutdown
  registered : ∀ {c name}, k.Registered c name → k'.Registered c name

namespace Spares

theorem refl (k : Collector) : k.Spares k := ⟨rfl, id⟩

theorem trans (h : k.Spares k') (h' : k'.Spares k'') : k.Spares k'' :=
  ⟨h'.shutdown.trans h.shutdown, fun hr => h'.registered (h.registered hr)⟩

theorem ofLedgers (hf : k'.shutdown = k.shutdown) (hl : k'.ledgers = k.ledgers) : k.Spares k' := by
  refine ⟨hf, fun hr => ?_⟩
  rw [Registered, hl]
  exact hr

/-- The ledger of a category may change in any way that keeps its names. -/
theorem ofNames (c : Category) (f : Ledger → Ledger) (hf : k'.shutdown = k.shutdown)
    (hl : k'.ledgers = k.ledgers.update c f)
    (hn : (f (k.ledgers.get c)).items.map Item.name = (k.ledgers.get c).items.map Item.name) :
    k.Spares k' := by
  refine ⟨hf, fun {d name} hr => ?_⟩
  rw [Registered, hl]
  by_cases hd : d = c
  · subst hd
    rw [PerCategory.get_update, Ledger.registered_congr hn]
    exact hr
  · rw [PerCategory.get_update_of_ne _ _ hd]
    exact hr

end Spares

theorem spares_register (k : Collector) (t : Target) : k.Spares (k.register t) := by
  refine ⟨rfl, fun {c name} hr => ?_⟩
  show (((k.ledgers.update t.category (·.register t.category t.name)).get c).item? name).isSome
  by_cases hc : c = t.category
  · subst hc
    rw [PerCategory.get_update]
    exact Ledger.registered_register _ _ hr
  · rw [PerCategory.get_update_of_ne _ _ hc]
    exact hr

theorem registered_register (k : Collector) (t : Target) :
    (k.register t).Registered t.category t.name := by
  show (((k.ledgers.update t.category _).get t.category).item? t.name).isSome
  rw [PerCategory.get_update]
  exact Ledger.item?_register _ _ _

/-- Registering targets keeps those that are there and adds the new ones. -/
theorem foldl_register (ts : List Target) (k : Collector) :
    k.Spares (ts.foldl register k) ∧
      ∀ t ∈ ts, (ts.foldl register k).Registered t.category t.name := by
  induction ts generalizing k with
  | nil => exact ⟨.refl k, nofun⟩
  | cons t ts ih =>
    obtain ⟨hspares, hthere⟩ := ih (k.register t)
    refine ⟨(spares_register k t).trans hspares, fun u hu => ?_⟩
    rcases List.mem_cons.1 hu with rfl | hu
    · exact hspares.registered (registered_register k u)
    · exact hthere u hu

theorem spares_reserve (k : Collector) (job : Job) : k.Spares (k.reserve job).2 :=
  .ofNames job.category (fun _ => ((k.ledgers.get job.category).reserve job.target job.id).2)
    rfl rfl (Ledger.names_reserve _ _ _)

theorem spares_withdraw (k : Collector) (job : Job) (e : Error) : k.Spares (k.withdraw job e) :=
  .ofNames job.category (fun l => (l.release job.target job.id).2) rfl rfl
    (Ledger.names_release _ _ _)

theorem spares_tick (k : Collector) (t : Target) (clock : Int) : k.Spares (k.tick t clock).2 := by
  have hdraw : k.Spares (k.draw t clock).2 := .ofLedgers rfl rfl
  have hreserve := hdraw.trans (spares_reserve _ (k.draw t clock).1)
  rw [tick_eq]
  rcases hr : (k.draw t clock).2.reserve (k.draw t clock).1 with ⟨admission, k'⟩
  rw [hr] at hreserve
  cases admission with
  | unregistered => exact hreserve.trans (.ofLedgers rfl rfl)
  | alreadyRunning => exact hreserve.trans (.ofLedgers rfl rfl)
  | admitted =>
    have henqueue : k'.Spares (k'.enqueue (k.draw t clock).1).2 := .ofLedgers rfl rfl
    rcases he : k'.enqueue (k.draw t clock).1 with ⟨e?, k''⟩
    rw [he] at henqueue
    dsimp only
    rw [he]
    cases e? with
    | none => exact (hreserve.trans henqueue).trans (.ofLedgers rfl rfl)
    | some e => exact (hreserve.trans henqueue).trans (spares_withdraw _ _ _)

theorem spares_begin (k : Collector) (job : Job) (now : Instant) : k.Spares (k.begin job now).2 :=
  .ofNames job.category (fun _ => ((k.ledgers.get job.category).start job now).2) rfl rfl
    (Ledger.names_start _ _ _)

theorem spares_settle (k : Collector) (job : Job) (span : Nat) (now : Instant)
    (result : Except Error Measurement) (d : Duration) :
    k.Spares (k.settle job span now result d) :=
  .ofNames job.category (fun _ => ((k.ledgers.get job.category).clear job.id now d).2) rfl rfl
    (Ledger.names_clear _ _ _ _)

theorem spares_recordDepth (k : Collector) (c : Category) (depth : Nat) :
    k.Spares (k.recordDepth c depth) := .ofNames c (·.setDepth depth) rfl rfl rfl

theorem spares_sampleDepths (k : Collector) : k.Spares k.sampleDepths :=
  .trans (spares_recordDepth _ _ _) (spares_recordDepth _ _ _)

/-- A target with a record is not found unregistered. -/
theorem tick_ne_unregistered {t : Target} (h : k.Registered t.category t.name) (clock : Int) :
    (k.tick t clock).1 ≠ .unregistered := by
  obtain ⟨i, hi⟩ := Option.isSome_iff_exists.1 h
  cases hrun : i.running with
  | true =>
    obtain ⟨o, ht⟩ := tick_of_running clock hi hrun
    rw [ht]
    exact nofun
  | false =>
    obtain ⟨o, hr⟩ := reserve_draw (Ledger.reserve_of_idle (k.draw t clock).1.id hi hrun)
    rw [tick_eq, hr]
    dsimp only
    split <;> exact nofun

end Collector

namespace World

open Collector (Spares TickOutcome)

variable {w w' u : World} {number m : Nat} {task : Task} {t : Target} {due : Option Instant}

/-! ### Moves of other tasks -/

/-- What a move leaves to the others: their tasks, where they wait, the clock, and the
targets.  A watchdog may come up. -/
structure Quiet (w w' : World) : Prop where
  posts : ∃ new, Posts w w' new
  spares : w.collector.Spares w'.collector

namespace Quiet

theorem ofAlike (ha : w.Alike w') (hk : w.collector.Spares w'.collector) : w.Quiet w' :=
  ⟨⟨0, .nothing ha⟩, hk⟩

theorem refl (w : World) : w.Quiet w := .ofAlike (.refl w) (.refl _)

theorem ofCollector {k : Collector} (hk : w.collector.Spares k) :
    w.Quiet { w with collector := k } := .ofAlike (.ofCollector hk.shutdown) hk

theorem ofLedgers (ha : w.Alike w') (hl : w'.collector.ledgers = w.collector.ledgers) :
    w.Quiet w' := .ofAlike ha (.ofLedgers ha.shutdown hl)

end Quiet

/-- A move of a measurement touches neither the tasks nor the ledgers. -/
theorem moveRun_alike (w : World) (run : Run) : w.Alike (w.moveRun run).2 ∧
    (w.moveRun run).2.collector.ledgers = w.collector.ledgers := by
  unfold moveRun
  split
  · exact ⟨.refl w, rfl⟩
  · exact ⟨.refl w, rfl⟩
  · exact ⟨⟨rfl, rfl, rfl, rfl, rfl, rfl⟩, rfl⟩
  · dsimp only
    split <;> exact ⟨⟨rfl, rfl, rfl, rfl, rfl, rfl⟩, rfl⟩
  · exact ⟨⟨rfl, rfl, rfl, rfl, rfl, rfl⟩, rfl⟩
  · dsimp only
    split <;> exact ⟨.refl w, rfl⟩
  · exact ⟨.refl w, rfl⟩

/-- Nor does it where the measurement ends and is settled. -/
theorem quiet_moveRun {run : Run} {p : Progress} (hm : w.moveRun run = (p, u)) :
    w.Quiet u ∧ ∀ result, w.Quiet (u.endRun run result) := by
  obtain ⟨halike, hledgers⟩ := moveRun_alike w run
  rw [hm] at halike hledgers
  have hquiet : w.Quiet u := .ofLedgers halike hledgers
  refine ⟨hquiet, fun result => .ofAlike ?_ ?_⟩
  · exact ⟨halike.slots, halike.spawned, halike.ready, halike.now, halike.settings,
      halike.shutdown⟩
  · exact hquiet.spares.trans (Collector.spares_settle _ _ _ _ _ _)

theorem quiet_moveWorker (w : World) (c : Category) (begun : Bool) (run : Option Run) :
    w.Quiet (w.moveWorker c begun run).2 := by
  unfold moveWorker
  cases run with
  | some run =>
    rcases hm : w.moveRun run with ⟨p, u⟩
    obtain ⟨hquiet, hend⟩ := quiet_moveRun hm
    dsimp only
    rw [hm]
    cases p with
    | goOn run => exact hquiet
    | wait run wait => exact hquiet
    | ended result => exact hend result
  | none =>
    dsimp only
    split
    · exact .ofCollector (.ofLedgers rfl rfl)
    split
    · exact .ofCollector (.ofLedgers rfl rfl)
    · have htake : w.collector.Spares (w.collector.takeJob c).2 := .ofLedgers rfl rfl
      split
      · exact .ofCollector (htake.trans (Collector.spares_begin _ _ _))
      · exact .ofCollector (.ofLedgers rfl rfl)
      · exact .ofCollector (.ofLedgers rfl rfl)
      · exact .ofCollector (.ofLedgers rfl rfl)

theorem quiet_moveErrand (w : World) (run : Run) : w.Quiet (w.moveErrand run).2 := by
  rcases hm : w.moveRun run with ⟨p, u⟩
  obtain ⟨hquiet, hend⟩ := quiet_moveRun hm
  rw [moveErrand, hm]
  cases p with
  | goOn run => exact hquiet
  | wait run wait => exact hquiet
  | ended result => exact hend result

theorem quiet_tick (w : World) (t : Target) : w.Quiet (w.tick t).2 := by
  have hspares := Collector.spares_tick w.collector t w.now
  rcases ht : w.collector.tick t w.now with ⟨outcome, k⟩
  rw [ht] at hspares
  have hquiet : w.Quiet { w with collector := k } := .ofCollector hspares
  cases outcome with
  | enqueued job =>
    have hw : (w.tick t).2 = ({ w with collector := k }.wakeWhere (Wait.isQueue job.category)).spawn
        (.watchdog job.id job.cycle job.timeout none) := by rw [tick, ht]
    refine ⟨⟨_, .watchdog (.ofCollector hspares.shutdown) _ job.id job.cycle job.timeout hw⟩, ?_⟩
    rw [hw]
    exact hspares
  | _ =>
    have hw : (w.tick t).2 = { w with collector := k } := by rw [tick, ht]
    exact hw ▸ hquiet

theorem quiet_moveTimer (w : World) (t : Target) (due : Option Instant) :
    w.Quiet (w.moveTimer t due).2 := by
  have hend : w.Quiet w.endTimer := .ofLedgers ⟨rfl, rfl, rfl, rfl, rfl, rfl⟩ rfl
  unfold moveTimer
  split
  · split
    · exact hend
    · exact .refl w
  · split
    · exact hend
    split
    · split
      · exact hend
      · exact quiet_tick w t
    · exact .refl w

theorem quiet_moveWatchdog (w : World) (id : JobId) (cycle : Option Nat) (timeout : Duration)
    (watch : Option Watch) : w.Quiet (w.moveWatchdog id cycle timeout watch).2 := by
  unfold moveWatchdog
  split
  · split <;> exact .refl w
  · split
    · exact .ofCollector (.ofLedgers rfl rfl)
    all_goals exact .refl w

theorem quiet_moveSampler (w : World) (due : Option Instant) (interval : Duration)
    (f : Option Instant → Task) {sample : Collector → Collector}
    (hs : w.collector.Spares (sample w.collector)) :
    w.Quiet (w.moveSampler due interval f sample).2 := by
  unfold moveSampler
  split
  · exact .refl w
  split
  · exact .refl w
  split
  · split
    · exact .refl w
    · exact .ofCollector hs
  · exact .refl w

/-- A move is quiet, whoever makes it. -/
theorem quiet_move (w : World) (task : Task) : w.Quiet (w.move task).2 := by
  cases task with
  | worker c begun run => exact quiet_moveWorker w c begun run
  | errand run => exact quiet_moveErrand w run
  | timer t due => exact quiet_moveTimer w t due
  | watchdog id cycle timeout watch => exact quiet_moveWatchdog w id cycle timeout watch
  | depthSampler due =>
    exact quiet_moveSampler w due _ _ (Collector.spares_sampleDepths w.collector)
  | taskSampler due =>
    exact quiet_moveSampler w due _ _ (.ofLedgers rfl rfl)

theorem map_number_setSlot (w : World) (number : Nat) (task : Task) (wait : Option Wait) :
    (w.setSlot number task wait).slots.map Slot.number = w.slots.map Slot.number := by
  rw [setSlot, List.map_map]
  refine List.map_congr_left fun x _ => ?_
  rw [Function.comp_apply]
  split <;> rfl

theorem runMove_of_goOn {x : Slot} (hf : w.slots.find? (·.number == number) = some x)
    (hm : w.move x.task = (.goOn task, u)) :
    w.runMove number = { u.setSlot number task none with ready := number :: u.ready } := by
  simp only [runMove, hf, hm]

theorem runMove_of_wait {x : Slot} {wait : Wait}
    (hf : w.slots.find? (·.number == number) = some x)
    (hm : w.move x.task = (.wait task wait, u)) :
    w.runMove number = u.setSlot number task (some wait) := by
  simp only [runMove, hf, hm]

/-- A move changes no slot but its own, and leaves a quiet world otherwise. -/
theorem runMove_eq (w : World) (number : Nat) : ∃ u slots ready, w.Quiet u ∧
    w.runMove number = { u with slots := slots, ready := ready } ∧
    (∀ x ∈ u.slots, x.number ≠ number → x ∈ slots) ∧ u.ready ⊆ ready ∧
    (slots.map Slot.number).Sublist (u.slots.map Slot.number) := by
  have hset : ∀ (u : World) task wait,
      (∀ x ∈ u.slots, x.number ≠ number → x ∈ (u.setSlot number task wait).slots) ∧
        ((u.setSlot number task wait).slots.map Slot.number).Sublist
          (u.slots.map Slot.number) := by
    refine fun u task wait => ⟨fun x hx hne => ?_, ?_⟩
    · exact List.mem_map.2 ⟨x, hx, if_neg hne⟩
    · rw [map_number_setSlot]
  unfold runMove
  cases hf : w.slots.find? (·.number == number) with
  | none => exact ⟨w, w.slots, w.ready, .refl w, rfl, fun _ hx _ => hx, fun _ hr => hr, .refl _⟩
  | some x =>
    have hquiet := quiet_move w x.task
    rcases hm : w.move x.task with ⟨m, u⟩
    rw [hm] at hquiet
    dsimp only
    rw [hm]
    cases m with
    | goOn task =>
      exact ⟨u, _, _, hquiet, rfl, (hset u task none).1, List.subset_cons_self _ _,
        (hset u task none).2⟩
    | wait task wait =>
      exact ⟨u, _, _, hquiet, rfl, (hset u task (some wait)).1, fun _ hr => hr,
        (hset u task (some wait)).2⟩
    | _ =>
      refine ⟨u, _, _, hquiet, rfl, fun y hy hne => ?_, fun _ hr => hr,
        List.filter_sublist.map Slot.number⟩
      exact List.mem_filter.2 ⟨hy, bne_iff_ne.2 hne⟩

/-- Whoever moves, the settings stay and the targets are spared. -/
theorem runMove_rest (w : World) (number : Nat) :
    (w.runMove number).settings = w.settings ∧
      w.collector.Spares (w.runMove number).collector := by
  obtain ⟨u, slots, ready, ⟨⟨_, hposts⟩, hspares⟩, hw, -⟩ := runMove_eq w number
  rw [hw]
  refine ⟨?_, hspares⟩
  obtain ha | ⟨ha, _, _, _, _, rfl⟩ := hposts <;> exact ha.settings

/-! ### Numbers -/

/-- The numbers of the slots differ, and new ones are not in use. -/
structure Numbered (w : World) : Prop where
  nodup : (w.slots.map Slot.number).Nodup
  below : ∀ n ∈ w.slots.map Slot.number, n < w.spawned

namespace Numbered

theorem mono (h : w.Numbered) (hn : (w'.slots.map Slot.number).Sublist (w.slots.map Slot.number))
    (hs : w.spawned ≤ w'.spawned) : w'.Numbered :=
  ⟨hn.nodup h.nodup, fun n hmem => Nat.lt_of_lt_of_le (h.below n (hn.subset hmem)) hs⟩

theorem wakeWhere (h : w.Numbered) (p : Wait → Bool) : (w.wakeWhere p).Numbered := by
  refine h.mono ?_ (Nat.le_refl _)
  rw [map_wake Slot.number fun _ _ => rfl]

theorem spawn (h : w.Numbered) (task : Task) : (w.spawn task).Numbered := by
  have hmap : (w.spawn task).slots.map Slot.number = w.slots.map Slot.number ++ [w.spawned] :=
    List.map_append
  refine ⟨?_, fun n hmem => ?_⟩
  · rw [hmap, ← List.concat_eq_append]
    exact h.nodup.concat fun hmem => Nat.lt_irrefl _ (h.below _ hmem)
  · rw [hmap, List.mem_append, List.mem_singleton] at hmem
    rcases hmem with hmem | rfl
    · exact Nat.lt_succ_of_lt (h.below n hmem)
    · exact Nat.lt_succ_self _

theorem quiet (h : w.Numbered) (hq : w.Quiet w') : w'.Numbered := by
  have halike : ∀ {u : World}, w.Alike u → u.Numbered := fun ha =>
    h.mono (by rw [ha.slots]) (Nat.le_of_eq ha.spawned.symm)
  obtain ⟨_, ha | ⟨ha, p, id, cycle, timeout, rfl⟩⟩ := hq.posts
  · exact halike ha
  · exact ((halike ha).wakeWhere p).spawn _

theorem runMove (h : w.Numbered) (number : Nat) : (w.runMove number).Numbered := by
  obtain ⟨u, slots, ready, hquiet, hw, -, -, hn⟩ := runMove_eq w number
  rw [hw]
  exact (h.quiet hquiet).mono hn (Nat.le_refl _)

/-- A slot is found by its number. -/
theorem find?_eq (h : w.Numbered) {x : Slot} (hx : x ∈ w.slots) :
    w.slots.find? (·.number == x.number) = some x := by
  cases hf : w.slots.find? (·.number == x.number) with
  | none => exact absurd (beq_self_eq_true x.number) (List.find?_eq_none.1 hf x hx)
  | some y =>
    have hnum : y.number = x.number := by simpa using List.find?_some hf
    rw [List.inj_on_of_nodup_map h.nodup (List.mem_of_find?_eq_some hf) hx hnum]

end Numbered

/-! ### Runs in any order -/

/-- What is told of a run: the ticks with the number of their timer, and the requests
for shutdown. -/
inductive Happening
  | ticked (instant : Instant) (number : Nat) (outcome : TickOutcome)
  | asked (instant : Instant)

/-- The instant of a tick of this timer. -/
def Happening.tickOf? (number : Nat) : Happening → Option Instant
  | .ticked instant n _ => if n = number then some instant else none
  | .asked _ => none

/-- The instant of a request for shutdown. -/
def Happening.asked? : Happening → Option Instant
  | .ticked .. => none
  | .asked instant => some instant

/-- The instants of the ticks of a timer, the first one first. -/
def ticksOf (number : Nat) (past : List Happening) : List Instant :=
  (past.filterMap (Happening.tickOf? number)).reverse

/-- The instant at which shutdown was requested first. -/
def askedAt? (past : List Happening) : Option Instant := (past.filterMap Happening.asked?).getLast?

/-- How a timer at this beat ticks when it moves, if it has a next beat. -/
def timerTick? (w : World) (t : Target) (due : Option Instant) : Option TickOutcome :=
  match due with
  | none => none
  | some due =>
    if w.collector.shutdown then none
    else if w.beatComes due then
      (w.settings.clock.nextBeat? .delay due w.now t.interval).map fun _ => (w.tick t).1
    else none

/-- How the task of a number ticks when it moves, if it is a timer that does. -/
def tick? (w : World) (number : Nat) : Option TickOutcome :=
  match w.slots.find? (·.number == number) with
  | some ⟨_, .timer t due, _⟩ => w.timerTick? t due
  | _ => none

/-- The tasks of a world take turns: any of them that is ready may be next.  Waits may
end, tasks may come up and the shared state may change at any time; time passes while
no task is ready, up to the alarms that are set.  The history has the latest first. -/
inductive Turns (w₀ : World) : List Happening → World → Prop
  | start : Turns w₀ [] w₀
  | move {past : List Happening} {w : World} {number : Nat} (h : Turns w₀ past w)
      (hr : number ∈ w.ready) :
      Turns w₀ (((w.tick? number).map (.ticked w.now number)).toList ++ past)
        ({ w with ready := w.ready.erase number }.runMove number)
  | wake {past : List Happening} {w : World} (h : Turns w₀ past w) (p : Wait → Bool) :
      Turns w₀ past (w.wakeWhere p)
  | elapse {past : List Happening} {w : World} {t : Instant} (h : Turns w₀ past w)
      (hr : w.ready = []) (hle : w.now ≤ t)
      (hnext : ∀ x ∈ w.slots, ∀ a cut, x.wait = some (.alarm a cut) → t ≤ max w.now a) :
      Turns w₀ past { w with now := t }
  | shutdown {past : List Happening} {w : World} (h : Turns w₀ past w) :
      Turns w₀ (.asked w.now :: past) w.shutdown
  | spawn {past : List Happening} {w : World} (h : Turns w₀ past w) (task : Task) :
      Turns w₀ past (w.spawn task)
  | outside {past : List Happening} {w : World} {k : Collector} (h : Turns w₀ past w)
      (hk : w.collector.Spares k) : Turns w₀ past { w with collector := k }

theorem Turns.now_le {w₀ : World} {past : List Happening} (h : Turns w₀ past w) :
    w₀.now ≤ w.now := by
  induction h with
  | start => exact Nat.le_refl _
  | @move past w number _ _ ih =>
    exact ih.trans_eq (runMove_now { w with ready := w.ready.erase number } number).symm
  | elapse _ _ hle _ ih => exact Nat.le_trans ih hle
  | wake _ _ ih => exact ih
  | shutdown _ ih => exact ih
  | spawn _ _ ih => exact ih
  | outside _ _ ih => exact ih

/-! ### The program takes turns -/

variable {w₀ : World} {past : List Happening} {config : Config} {settings : Settings}

/-- A step of the program is one turn, or time and the end of some waits. -/
theorem Turns.step? (h : Turns w₀ past w) {horizon : Option Instant}
    (hs : w.step? horizon = some w') : ∃ past', Turns w₀ past' w' := by
  unfold World.step? at hs
  split at hs
  · next number rest hr =>
    cases hs
    have hmem : number ∈ w.ready := hr ▸ List.mem_cons_self
    have hmove := h.move hmem
    rw [hr, List.erase_cons_head] at hmove
    exact ⟨_, hmove⟩
  · next hr =>
    split at hs
    · cases hs
      exact ⟨_, h.wake _⟩
    · split at hs
      · cases hs
      · next a ha =>
        split at hs
        · cases hs
          refine ⟨past, .wake (.elapse h hr (Nat.le_max_left _ _) ?_) _⟩
          intro x hx b cut hwait
          obtain ⟨_, ha', hle⟩ := nextAlarm?_le hx hwait
          obtain rfl := Option.some.inj (ha.symm.trans ha')
          exact Nat.max_le.2 ⟨Nat.le_max_left _ _, Nat.le_trans hle (Nat.le_max_right _ _)⟩
        · cases hs

/-- Where nothing is left to do before an instant, time may pass up to it. -/
theorem Turns.pass (h : Turns w₀ past w) {t : Instant} (hle : w.now ≤ t)
    (hs : w.step? (some t) = none) : Turns w₀ past { w with now := t } := by
  unfold World.step? at hs
  split at hs
  · cases hs
  · next hr =>
    split at hs
    · cases hs
    · refine h.elapse hr hle fun x hx a cut hwait => ?_
      obtain ⟨b, hb, hba⟩ := nextAlarm?_le hx hwait
      rw [hb] at hs
      have hlt : t < b := by simpa using hs
      exact Nat.le_trans (Nat.le_of_lt hlt) (Nat.le_trans hba (Nat.le_max_right _ _))

/-- The program with its workers there, before it starts the timers. -/
def staffed (settings : Settings) (queues : PerCategory Queue) : World :=
  Category.all.foldl (fun w c => w.spawn (.worker c false none)) (Daemon.idle settings queues)

/-- The program numbers its tasks from its start on. -/
theorem numbered_staffed (settings : Settings) (queues : PerCategory Queue) :
    (staffed settings queues).Numbered := by
  have hidle : (Daemon.idle settings queues).Numbered := ⟨List.nodup_nil, nofun⟩
  exact (hidle.spawn _).spawn _

/-- Whatever the program comes to, its tasks have come to by taking turns from the start
of the timers. -/
theorem Serving.turns (h : Serving config settings w) : ∃ queues past,
    Turns ((staffed settings queues).startTimers config.targets) past w := by
  induction h with
  | @start queues hq =>
    refine ⟨queues, [], ?_⟩
    exact .outside (.spawn (.spawn .start _) _) (.ofLedgers rfl rfl)
  | step _ hs ih =>
    obtain ⟨queues, past, h⟩ := ih
    obtain ⟨past', h'⟩ := h.step? hs
    exact ⟨queues, past', h'⟩
  | pass _ hle hs ih =>
    obtain ⟨queues, past, h⟩ := ih
    exact ⟨queues, past, h.pass hle hs⟩
  | shutdown _ ih =>
    obtain ⟨queues, past, h⟩ := ih
    exact ⟨queues, _, h.shutdown⟩
  | log _ e ih =>
    obtain ⟨queues, past, h⟩ := ih
    exact ⟨queues, past, h.outside (.ofLedgers rfl rfl)⟩

end World

end DiskWatch
