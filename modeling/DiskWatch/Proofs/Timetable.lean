/-
DiskWatch/Proofs/Timetable.lean

The ticks of a timer keep a timetable of their own.  The clock moves past an alarm
only after whoever waits for it had its turn.  So whatever the other tasks do, and
in whichever order they move, a timer is never late: it keeps the tempo of its own
beats (`OnTime`).  A request for shutdown ends this, at whatever instant it comes.

Main results: the ticks of a target are its beats before the request for shutdown
(`timers_keep_time`), and two programs that share nothing else give a target the
same ticks (`ticks_agree`).
-/
import DiskWatch.Proofs.Tempo
import DiskWatch.Proofs.Turns

namespace DiskWatch

namespace World

open Collector (Spares TickOutcome)

variable {w w' w₀ : World} {m number : Nat} {task : Task} {t : Target} {due : Option Instant}
  {past : List Happening} {ts : List Target} {start u v : Instant} {i : Nat}

/-! ### Moves of a timer -/

theorem moveTimer_of_comes (hf : w.collector.shutdown = false) (hb : w.beatComes u = true)
    (hv : w.settings.clock.nextBeat? .delay u w.now t.interval = some v) :
    w.moveTimer t (some u) = (.goOn (.timer t (some v)), (w.tick t).2) := by
  simp only [moveTimer, hf, hb, hv, Bool.false_eq_true, if_false, if_true]

theorem moveTimer_of_not_comes (hf : w.collector.shutdown = false) (hb : w.beatComes u = false)
    (t : Target) : w.moveTimer t (some u) = (.wait (.timer t (some u)) (w.beatWait u), w) := by
  simp only [moveTimer, hf, hb, Bool.false_eq_true, if_false]

theorem timerTick?_of_comes (hf : w.collector.shutdown = false) (hb : w.beatComes u = true)
    (hv : w.settings.clock.nextBeat? .delay u w.now t.interval = some v) :
    w.timerTick? t (some u) = some (w.tick t).1 := by
  simp only [timerTick?, hf, hb, hv, Bool.false_eq_true, if_false, if_true, Option.map_some]

theorem timerTick?_of_not_comes (hb : w.beatComes u = false) (t : Target) :
    w.timerTick? t (some u) = none := by
  simp only [timerTick?, hb, Bool.false_eq_true, if_false, ite_self]

/-! ### The slot of a timer -/

/-- The timer of a target has this slot and is due at this instant. -/
def Has (w : World) (m : Nat) (t : Target) (due : Option Instant) : Prop :=
  ∃ x ∈ w.slots, x.number = m ∧ x.task = .timer t due

/-- It is ready, or waits for that instant. -/
def Sits (w : World) (m : Nat) (t : Target) (due : Option Instant) : Prop :=
  ∃ wait, (⟨m, .timer t due, wait⟩ : Slot) ∈ w.slots ∧ (wait = none → m ∈ w.ready) ∧
    ∀ a, wait = some a → ∃ u, due = some u ∧ a = w.beatWait u

namespace Sits

theorem congr (h : w.Sits m t due) (hslots : ∀ x ∈ w.slots, x.number = m → x ∈ w'.slots)
    (hready : m ∈ w.ready → m ∈ w'.ready) (hset : w'.settings = w.settings) :
    w'.Sits m t due := by
  obtain ⟨wait, hmem, hnone, hsome⟩ := h
  refine ⟨wait, hslots _ hmem rfl, fun hw => hready (hnone hw), fun a ha => ?_⟩
  obtain ⟨u, hu, rfl⟩ := hsome a ha
  exact ⟨u, hu, by rw [beatWait, beatWait, hset]⟩

theorem wakeWhere (h : w.Sits m t due) (p : Wait → Bool) : (w.wakeWhere p).Sits m t due := by
  obtain ⟨wait, hmem, hnone, hsome⟩ := h
  cases hp : wait.any p with
  | true =>
    refine ⟨none, List.mem_map.2 ⟨_, hmem, if_pos hp⟩, fun _ => ?_, nofun⟩
    exact List.mem_append_right _ (List.mem_map.2 ⟨_, List.mem_filter.2 ⟨hmem, hp⟩, rfl⟩)
  | false =>
    refine ⟨wait, List.mem_map.2 ⟨_, hmem, if_neg (Bool.eq_false_iff.1 hp)⟩, fun hw => ?_, hsome⟩
    exact List.mem_append_left _ (hnone hw)

theorem spawn (h : w.Sits m t due) (task : Task) : (w.spawn task).Sits m t due :=
  h.congr (fun _ hx _ => List.mem_append_left _ hx) (fun hr => List.mem_append_left _ hr) rfl

theorem quiet (h : w.Sits m t due) (hq : w.Quiet w') : w'.Sits m t due := by
  have halike : ∀ {u : World}, w.Alike u → u.Sits m t due := fun ha =>
    h.congr (fun x hx _ => ha.slots ▸ hx) (fun hr => ha.ready ▸ hr) ha.settings
  obtain ⟨_, ha | ⟨ha, p, id, cycle, timeout, rfl⟩⟩ := hq.posts
  · exact halike ha
  · exact ((halike ha).wakeWhere p).spawn _

/-- A timer is left alone while another task moves. -/
theorem otherMove (h : w.Sits m t due) (hne : number ≠ m) :
    ({ w with ready := w.ready.erase number }.runMove number).Sits m t due := by
  have herase : Sits { w with ready := w.ready.erase number } m t due :=
    h.congr (fun _ hx _ => hx) (fun hr => (List.mem_erase_of_ne hne.symm).2 hr) rfl
  obtain ⟨u, slots, ready, hquiet, hw, hslots, hready, -⟩ :=
    runMove_eq { w with ready := w.ready.erase number } number
  rw [hw]
  refine (herase.quiet hquiet).congr (fun x hx hm => hslots x hx ?_) (fun hr => hready hr) rfl
  exact hm ▸ hne.symm

theorem has (h : w.Sits m t due) : w.Has m t due := by
  obtain ⟨wait, hmem, -⟩ := h
  exact ⟨_, hmem, rfl, rfl⟩

end Sits

/-- What a timer is due at after its move, if it goes on. -/
def nextDue (w : World) (t : Target) : Option Instant → Option Instant
  | none => some w.now
  | some u =>
    if w.beatComes u then w.settings.clock.nextBeat? .delay u w.now t.interval else some u

namespace Has

theorem find? (h : w.Has m t due) (hn : w.Numbered) :
    ∃ x, w.slots.find? (·.number == m) = some x ∧ x.task = .timer t due := by
  obtain ⟨x, hx, rfl, htask⟩ := h
  exact ⟨x, hn.find?_eq hx, htask⟩

theorem tick?_eq (h : w.Has m t due) (hn : w.Numbered) : w.tick? m = w.timerTick? t due := by
  obtain ⟨⟨_, _, _⟩, hf, rfl⟩ := h.find? hn
  rw [tick?, hf]

theorem quiet (h : w.Has m t due) (hq : w.Quiet w') : w'.Has m t due := by
  obtain ⟨x, hx, hnum, htask⟩ := h
  obtain ⟨new, hposts⟩ := hq.posts
  obtain ⟨y, hy, hnum', htask'⟩ := hposts.slot hx
  exact ⟨y, hy, hnum'.trans hnum, htask'.trans htask⟩

/-- A timer that goes on is ready. -/
theorem goOn (h : w.Has m t due) (due' : Option Instant) :
    Sits { w.setSlot m (.timer t due') none with ready := m :: w.ready } m t due' := by
  obtain ⟨x, hx, rfl, -⟩ := h
  exact ⟨none, List.mem_map.2 ⟨x, hx, if_pos rfl⟩, fun _ => List.mem_cons_self, nofun⟩

/-- A timer that waits does so for its beat. -/
theorem wait (h : w.Has m t due) (u : Instant) :
    (w.setSlot m (.timer t (some u)) (some (w.beatWait u))).Sits m t (some u) := by
  obtain ⟨x, hx, rfl, -⟩ := h
  refine ⟨_, List.mem_map.2 ⟨x, hx, if_pos rfl⟩, nofun, ?_⟩
  rintro _ ⟨⟩
  exact ⟨u, rfl, rfl⟩

/-- Where a move leaves a timer that goes on, while no shutdown was requested. -/
theorem move (h : w.Has m t due) (hn : w.Numbered) (hpos : 0 < t.interval.nanos)
    (hf : w.collector.shutdown = false) (hv : w.nextDue t due = some v) :
    (w.runMove m).Sits m t (some v) := by
  obtain ⟨⟨_, _, _⟩, hfind, rfl⟩ := h.find? hn
  cases due with
  | none =>
    have hm : w.moveTimer t none = (.goOn (.timer t (some w.now)), w) :=
      if_neg (Nat.ne_of_gt hpos)
    obtain rfl := Option.some.inj hv
    rw [runMove_of_goOn hfind hm]
    exact h.goOn _
  | some u =>
    rw [nextDue] at hv
    by_cases hb : w.beatComes u = true
    · rw [if_pos hb] at hv
      rw [runMove_of_goOn hfind (moveTimer_of_comes hf hb hv)]
      exact (h.quiet (quiet_tick w t)).goOn _
    · rw [if_neg hb] at hv
      obtain rfl := Option.some.inj hv
      have hm := moveTimer_of_not_comes hf (Bool.eq_false_iff.2 hb) t
      rw [runMove_of_wait hfind hm]
      exact h.wait u

end Has

/-! ### Histories -/

theorem ticksOf_cons_tick (instant : Instant) (outcome : TickOutcome) (past : List Happening) :
    ticksOf m (.ticked instant m outcome :: past) = ticksOf m past ++ [instant] := by
  simp [ticksOf, Happening.tickOf?]

theorem ticksOf_ticks_of_ne (hne : number ≠ m) (o : Option TickOutcome) (instant : Instant)
    (past : List Happening) :
    ticksOf m ((o.map (.ticked instant number)).toList ++ past) = ticksOf m past := by
  cases o with
  | none => rfl
  | some outcome => simp [ticksOf, Happening.tickOf?, hne]

theorem ticksOf_cons_asked (instant : Instant) (past : List Happening) :
    ticksOf m (.asked instant :: past) = ticksOf m past := rfl

theorem askedAt?_ticks (o : Option TickOutcome) (instant : Instant) (past : List Happening) :
    askedAt? ((o.map (.ticked instant number)).toList ++ past) = askedAt? past := by
  cases o <;> rfl

theorem askedAt?_cons_asked (instant : Instant) (past : List Happening) :
    askedAt? (.asked instant :: past) = some ((askedAt? past).getD instant) := by
  rw [askedAt?, List.filterMap_cons_some (f := Happening.asked?) rfl, List.getLast?_cons]
  rfl

/-- After a request for shutdown no timer ticks. -/
theorem tick?_of_shutdown (hf : w.collector.shutdown = true) (number : Nat) :
    w.tick? number = none := by
  unfold tick?
  split
  · unfold timerTick?
    split
    · rfl
    · rw [if_pos hf]
  · rfl

/-- A timer that is not late goes on, and is not late after its move. -/
theorem awaits_move {c : Clock} (hc : w.settings.clock = c) (hg : 0 < c.grain)
    (hle : c.grain ≤ Clock.tolerance) (hs : start ≤ c.lastAlarm)
    (hf : w.collector.shutdown = false)
    (h : c.Awaits start t.interval w.now due (ticksOf m past)) :
    ∃ v, w.nextDue t due = some v ∧ c.Awaits start t.interval w.now (some v)
      (ticksOf m (((w.timerTick? t due).map (.ticked w.now m)).toList ++ past)) := by
  subst hc
  cases due with
  | none => exact ⟨w.now, rfl, h.begin hg hs⟩
  | some u =>
    rw [nextDue]
    by_cases hb : w.beatComes u = true
    · obtain ⟨v, hv, htick⟩ := h.tick hg hle (of_decide_eq_true hb) .delay
      rw [← ticksOf_cons_tick w.now (w.tick t).1 past] at htick
      rw [if_pos hb, timerTick?_of_comes hf hb hv]
      exact ⟨v, hv, htick⟩
    · rw [if_neg hb, timerTick?_of_not_comes (Bool.eq_false_iff.2 hb)]
      exact ⟨u, rfl, h⟩

/-- A timer whose target is registered finds it so. -/
theorem timerTick?_ne_unregistered (h : w.collector.Registered t.category t.name)
    {outcome : TickOutcome} (ho : w.timerTick? t due = some outcome) :
    outcome ≠ .unregistered := by
  have htick : (w.tick t).1 = (w.collector.tick t w.now).1 := by
    rcases hk : w.collector.tick t w.now with ⟨o, k⟩
    cases o <;> rw [tick, hk]
  have hne := Collector.tick_ne_unregistered h w.now
  unfold timerTick? at ho
  split at ho
  · cases ho
  split at ho
  · cases ho
  split at ho
  · obtain ⟨_, -, rfl⟩ := Option.map_eq_some_iff.1 ho
    rw [htick]
    exact hne
  · cases ho

/-! ### What a turn keeps -/

/-- The timer of a target has kept time so far.  Until shutdown is requested it is there
and not late, and from then on its ticks are those before the request. -/
structure OnTime (c : Clock) (start : Instant) (m : Nat) (t : Target) (past : List Happening)
    (w : World) : Prop where
  clock : w.settings.clock = c
  numbered : w.Numbered
  registered : w.collector.Registered t.category t.name
  before : askedAt? past = none → w.collector.shutdown = false ∧
    ∃ due, w.Sits m t due ∧ c.Awaits start t.interval w.now due (ticksOf m past)
  after : ∀ d, askedAt? past = some d → w.collector.shutdown = true ∧ d ≤ w.now ∧
    c.Timely start t.interval d (ticksOf m past)
  found : ∀ instant outcome, .ticked instant m outcome ∈ past → outcome ≠ .unregistered

namespace OnTime

variable {c : Clock} {k : Collector}

/-- What is read off the shared state is the same where that is quiet. -/
theorem congr (h : OnTime c start m t past w) (hset : w'.settings = w.settings)
    (hn : w'.Numbered) (hnow : w'.now = w.now) (hk : w.collector.Spares w'.collector)
    (hslot : ∀ due, w.Sits m t due → w'.Sits m t due) : OnTime c start m t past w' where
  clock := hset ▸ h.clock
  numbered := hn
  registered := hk.registered h.registered
  before hask := by
    obtain ⟨hf, due, hsits, hawaits⟩ := h.before hask
    exact ⟨hk.shutdown.trans hf, due, hslot due hsits, hnow ▸ hawaits⟩
  after d hask := by
    obtain ⟨hf, hle, htimely⟩ := h.after d hask
    exact ⟨hk.shutdown.trans hf, hnow ▸ hle, htimely⟩
  found := h.found

/-- The history of a turn after which the timer has not ticked. -/
theorem told (h : OnTime c start m t past w) {past' : List Happening}
    (hasked : askedAt? past' = askedAt? past) (hticks : ticksOf m past' = ticksOf m past)
    (hfound : ∀ instant outcome, .ticked instant m outcome ∈ past' →
      .ticked instant m outcome ∈ past) : OnTime c start m t past' w where
  clock := h.clock
  numbered := h.numbered
  registered := h.registered
  before hask := by rw [hticks]; exact h.before (hasked ▸ hask)
  after d hask := by rw [hticks]; exact h.after d (hasked ▸ hask)
  found instant outcome hmem := h.found instant outcome (hfound instant outcome hmem)

/-- Another task moves. -/
theorem otherMove (h : OnTime c start m t past w) (hne : number ≠ m) :
    OnTime c start m t (((w.tick? number).map (.ticked w.now number)).toList ++ past)
      ({ w with ready := w.ready.erase number }.runMove number) := by
  have herase : Numbered { w with ready := w.ready.erase number } :=
    h.numbered.mono (.refl _) (Nat.le_refl _)
  obtain ⟨hset, hspares⟩ := runMove_rest { w with ready := w.ready.erase number } number
  have hmoved : OnTime c start m t past
      ({ w with ready := w.ready.erase number }.runMove number) :=
    h.congr hset (herase.runMove number) (runMove_now _ _) hspares fun _ hsits =>
      hsits.otherMove hne
  refine hmoved.told (askedAt?_ticks _ _ _) (ticksOf_ticks_of_ne hne _ _ _) ?_
  intro instant outcome hmem
  refine (List.mem_append.1 hmem).resolve_left fun hmem => ?_
  obtain ⟨outcome', -, he⟩ := Option.map_eq_some_iff.1 (Option.mem_toList.1 hmem)
  cases he
  exact hne rfl

/-- The timer itself moves. -/
theorem ownMove (h : OnTime c start m t past w) (hpos : 0 < t.interval.nanos)
    (hg : 0 < c.grain) (hle : c.grain ≤ Clock.tolerance) (hs : start ≤ c.lastAlarm) :
    OnTime c start m t (((w.tick? m).map (.ticked w.now m)).toList ++ past)
      ({ w with ready := w.ready.erase m }.runMove m) := by
  have herase : Numbered { w with ready := w.ready.erase m } :=
    h.numbered.mono (.refl _) (Nat.le_refl _)
  obtain ⟨hset, hspares⟩ := runMove_rest { w with ready := w.ready.erase m } m
  have hclock := (congrArg (fun s : Settings => s.clock) hset).trans h.clock
  have hnow := runMove_now { w with ready := w.ready.erase m } m
  cases hask : askedAt? past with
  | some d =>
    obtain ⟨hf, hle, htimely⟩ := h.after d hask
    rw [tick?_of_shutdown hf]
    refine ⟨hclock, herase.runMove m, hspares.registered h.registered, fun hnone => ?_,
      fun d' hd' => ?_, h.found⟩
    · exact absurd (hask.symm.trans hnone) nofun
    · obtain rfl := Option.some.inj (hask.symm.trans hd')
      exact ⟨hspares.shutdown.trans hf, hle.trans_eq hnow.symm, htimely⟩
  | none =>
    obtain ⟨hf, due, hsits, hawaits⟩ := h.before hask
    -- the timer is not among those that are ready any more, but its slot is there
    have hhas : Has { w with ready := w.ready.erase m } m t due := hsits.has
    obtain ⟨v, hv, hnext⟩ := awaits_move h.clock hg hle hs hf hawaits
    rw [hsits.has.tick?_eq h.numbered]
    refine ⟨hclock, herase.runMove m, hspares.registered h.registered, fun _ => ?_,
      fun d hd => ?_, fun instant outcome hmem => ?_⟩
    · exact ⟨hspares.shutdown.trans hf, _, hhas.move herase hpos hf hv, hnow.symm ▸ hnext⟩
    · rw [askedAt?_ticks, hask] at hd
      cases hd
    · rcases List.mem_append.1 hmem with hmem | hmem
      · obtain ⟨_, htick, he⟩ := Option.map_eq_some_iff.1 (Option.mem_toList.1 hmem)
        cases he
        exact timerTick?_ne_unregistered h.registered htick
      · exact h.found instant outcome hmem

theorem wakeWhere (h : OnTime c start m t past w) (p : Wait → Bool) :
    OnTime c start m t past (w.wakeWhere p) :=
  h.congr rfl (h.numbered.wakeWhere p) rfl (.refl _) fun _ hsits => hsits.wakeWhere p

theorem spawn (h : OnTime c start m t past w) (task : Task) :
    OnTime c start m t past (w.spawn task) :=
  h.congr rfl (h.numbered.spawn task) rfl (.refl _) fun _ hsits => hsits.spawn task

theorem outside (h : OnTime c start m t past w) (hk : w.collector.Spares k) :
    OnTime c start m t past { w with collector := k } :=
  h.congr rfl (h.numbered.mono (.refl _) (Nat.le_refl _)) rfl hk fun _ hsits =>
    hsits.congr (fun _ hx _ => hx) id rfl

/-- While time passes the timer waits. -/
theorem elapse (h : OnTime c start m t past w) (hr : w.ready = []) (hle : w.now ≤ u)
    (hnext : ∀ x ∈ w.slots, ∀ a cut, x.wait = some (.alarm a cut) → u ≤ max w.now a) :
    OnTime c start m t past { w with now := u } where
  clock := h.clock
  numbered := h.numbered.mono (.refl _) (Nat.le_refl _)
  registered := h.registered
  before hask := by
    obtain ⟨hf, due, hsits, hawaits⟩ := h.before hask
    refine ⟨hf, due, hsits.congr (fun _ hx _ => hx) id rfl, ?_⟩
    obtain ⟨wait, hmem, hnone, hsome⟩ := hsits
    cases wait with
    | none =>
      have hready := hnone rfl
      rw [hr] at hready
      cases hready
    | some a =>
      obtain ⟨v, rfl, rfl⟩ := hsome a rfl
      have halarm := hnext _ hmem _ true rfl
      rw [h.clock] at halarm
      exact hawaits.elapse hle halarm
  after d hask := by
    obtain ⟨hf, hd, htimely⟩ := h.after d hask
    exact ⟨hf, Nat.le_trans hd hle, htimely⟩
  found := h.found

/-- A request for shutdown comes, the first one or a later one. -/
theorem shutdown (h : OnTime c start m t past w) (hg : 0 < c.grain) (hs : start ≤ c.lastAlarm) :
    OnTime c start m t (.asked w.now :: past) w.shutdown where
  clock := h.clock
  numbered := Numbered.wakeWhere (w := w.onCollector Collector.requestShutdown)
    (h.numbered.mono (.refl _) (Nat.le_refl _)) _
  registered := h.registered
  before hask := by
    rw [askedAt?_cons_asked] at hask
    cases hask
  after d hask := by
    rw [askedAt?_cons_asked] at hask
    obtain rfl := Option.some.inj hask
    rw [ticksOf_cons_asked]
    cases hbefore : askedAt? past with
    | none =>
      obtain ⟨-, due, -, hawaits⟩ := h.before hbefore
      exact ⟨rfl, Nat.le_refl _, hawaits.timely hg hs⟩
    | some d =>
      obtain ⟨-, hle, htimely⟩ := h.after d hbefore
      exact ⟨rfl, hle, htimely⟩
  found instant outcome hmem := by
    rcases List.mem_cons.1 hmem with he | hmem
    · cases he
    · exact h.found instant outcome hmem

/-- What the ticks come to. -/
theorem timely (h : OnTime c start m t past w) (hg : 0 < c.grain) (hs : start ≤ c.lastAlarm) :
    c.Timely start t.interval ((askedAt? past).getD w.now) (ticksOf m past) := by
  cases hask : askedAt? past with
  | none =>
    obtain ⟨-, due, -, hawaits⟩ := h.before hask
    exact hawaits.timely hg hs
  | some d => exact (h.after d hask).2.2

end OnTime

/-- Timers keep time, whoever takes turns. -/
theorem Turns.onTime {c : Clock} (h : Turns w₀ past w) (h₀ : OnTime c start m t [] w₀)
    (hpos : 0 < t.interval.nanos) (hg : 0 < c.grain) (hgrain : c.grain ≤ Clock.tolerance)
    (hs : start ≤ c.lastAlarm) : OnTime c start m t past w := by
  induction h with
  | start => exact h₀
  | @move past w number _ _ ih =>
    by_cases hne : number = m
    · subst hne
      exact ih.ownMove hpos hg hgrain hs
    · exact ih.otherMove hne
  | wake _ p ih => exact ih.wakeWhere p
  | elapse _ hr hle hnext ih => exact ih.elapse hr hle hnext
  | shutdown _ ih => exact ih.shutdown hg hs
  | spawn _ task ih => exact ih.spawn task
  | outside _ hk ih => exact ih.outside hk

/-! ### The start of the timers -/

/-- Starting timers adds tasks, and nothing else. -/
theorem foldl_spawn (f : Target → Task) (ts : List Target) (w : World) (hn : w.Numbered) :
    (ts.foldl (fun w t => w.spawn (f t)) w).Numbered ∧
      (ts.foldl (fun w t => w.spawn (f t)) w).settings = w.settings ∧
      (ts.foldl (fun w t => w.spawn (f t)) w).now = w.now ∧
      (ts.foldl (fun w t => w.spawn (f t)) w).collector = w.collector ∧
      ∀ {m : Nat} {t : Target} {due : Option Instant}, w.Sits m t due →
        (ts.foldl (fun w t => w.spawn (f t)) w).Sits m t due := by
  induction ts generalizing w with
  | nil => exact ⟨hn, rfl, rfl, rfl, id⟩
  | cons t ts ih =>
    obtain ⟨hn', hset, hnow, hk, hsits⟩ := ih (w.spawn (f t)) (hn.spawn _)
    exact ⟨hn', hset, hnow, hk, fun h => hsits (h.spawn _)⟩

/-- The timers sit in the order of their targets. -/
theorem sits_of_getElem? (hn : w.Numbered) (ht : ts[i]? = some t) :
    (ts.foldl (fun w t => w.spawn (.timer t none)) w).Sits (w.spawned + i) t none := by
  induction ts generalizing w i with
  | nil => cases ht
  | cons u ts ih =>
    cases i with
    | zero =>
      obtain rfl := Option.some.inj ht
      have hsits : (w.spawn (.timer u none)).Sits w.spawned u none :=
        ⟨none, List.mem_append_right _ (List.mem_singleton_self _),
          fun _ => List.mem_append_right _ (List.mem_singleton_self _), nofun⟩
      exact (foldl_spawn (.timer · none) ts _ (hn.spawn _)).2.2.2.2 hsits
    | succ i =>
      have hsits := ih (hn.spawn (.timer u none)) ht
      rw [Nat.add_comm i 1, ← Nat.add_assoc]
      exact hsits

theorem onTime_startTimers (hn : w₀.Numbered) (hf : w₀.collector.shutdown = false)
    (ht : ts[i]? = some t) :
    OnTime w₀.settings.clock w₀.now (w₀.spawned + i) t [] (w₀.startTimers ts) := by
  obtain ⟨hspares, hthere⟩ := Collector.foldl_register ts w₀.collector
  have hn' : (w₀.onCollector (·.registerAll ts)).Numbered := hn.mono (.refl _) (Nat.le_refl _)
  obtain ⟨hn'', hset, hnow, hk, -⟩ := foldl_spawn (.timer · none) ts _ hn'
  refine ⟨congrArg (fun s : Settings => s.clock) hset, hn'', ?_, fun _ => ?_, nofun, nofun⟩
  · rw [startTimers, hk]
    exact hthere t (List.mem_of_getElem? ht)
  · refine ⟨?_, none, sits_of_getElem? hn' ht, .unbegun hnow⟩
    rw [startTimers, hk]
    exact hspares.shutdown.trans hf

/-! ### After a request for shutdown -/

/-- Two programs that start a target with the same period at the same instant tick it at
the same instants, as far as both have come. -/
theorem ticks_agree {w₀ w₀' w w' : World} {ts ts' : List Target} {past past' : List Happening}
    {i i' : Nat} {t t' : Target} {g : Instant} (hn : w₀.Numbered) (hn' : w₀'.Numbered)
    (hf : w₀.collector.shutdown = false) (hf' : w₀'.collector.shutdown = false)
    (h : Turns (w₀.startTimers ts) past w) (h' : Turns (w₀'.startTimers ts') past' w')
    (ht : ts[i]? = some t) (ht' : ts'[i']? = some t') (hp : 0 < t.interval.nanos)
    (hc : w₀'.settings.clock = w₀.settings.clock) (hg : 0 < w₀.settings.clock.grain)
    (hgrain : w₀.settings.clock.grain ≤ Clock.tolerance) (hnow : w₀'.now = w₀.now)
    (hs : w₀.now ≤ w₀.settings.clock.lastAlarm) (hi : t'.interval = t.interval)
    (hle : g ≤ (askedAt? past).getD w.now)
    (hle' : g ≤ (askedAt? past').getD w'.now) :
    (ticksOf (w₀.spawned + i) past).filter (· < g) =
      (ticksOf (w₀'.spawned + i') past').filter (· < g) := by
  have hone := (h.onTime (onTime_startTimers hn hf ht) hp hg hgrain hs).timely hg hs
  have htwo := onTime_startTimers hn' hf' ht'
  rw [hc, hnow] at htwo
  have htwo' := (h'.onTime htwo (hi ▸ hp) hg hgrain hs).timely hg hs
  rw [hi] at htwo'
  exact hone.filter_eq htwo' hle hle'

section Alone

open Engine (sampleTarget)

/-- Surroundings in which nothing is found and nothing takes time. -/
def bareSettings : Settings where
  toRoutine := .standard
  surroundings := ⟨fun _ => .absent, fun _ => .zero, fun _ c => .error (.notStarted c.program "")⟩
  stopwatch := fun _ => .zero
  cancelFirst := false

/-- A world with the timer of a target in it and no other task. -/
def alone (k : Collector) (now : Instant) (due : Option Instant) (wait : Option Wait)
    (ready : List Nat) : World where
  settings := bareSettings
  now := now
  collector := k
  slots := [⟨0, .timer sampleTarget due, wait⟩]
  spawned := 1
  ready := ready
  calls := []
  ended := []
  reports := []
  timersEnded := 0

/-- A state that shows the target busy, before any request for shutdown. -/
def Occupied (k : Collector) : Prop :=
  k.shutdown = false ∧ ∃ i, (k.ledgers.get .filesystem).item? "root" = some i ∧ i.running = true

variable {k : Collector} {now : Instant}

theorem tick_of_skipped {k' : Collector} (h : w.collector.tick t w.now = (.skipped, k')) :
    w.tick t = (.skipped, { w with collector := k' }) := by
  rw [tick, h]

/-- The timer moves, and takes its turn again. -/
theorem Turns.goesOn {k' : Collector} {due due' : Option Instant} {o : Option TickOutcome}
    (h : Turns w₀ past (alone k now due none [0]))
    (ho : (alone k now due none [0]).timerTick? sampleTarget due = o)
    (hm : (alone k now due none []).moveTimer sampleTarget due =
      (.goOn (.timer sampleTarget due'), alone k' now due none [])) :
    Turns w₀ ((o.map (.ticked now 0)).toList ++ past) (alone k' now due' none [0]) := by
  have hturn := h.move (List.mem_singleton_self 0)
  have hafter : (alone k now due none []).runMove 0 = alone k' now due' none [0] :=
    runMove_of_goOn (x := ⟨0, .timer sampleTarget due, none⟩) rfl hm
  subst ho
  exact hafter ▸ hturn

/-- The timer of a busy target ticks when it is due. -/
theorem Turns.skip {v : Instant} (h : Turns w₀ past (alone k now (some u) none [0]))
    (hk : Occupied k) (hu : bareSettings.clock.alarm u ≤ now)
    (hv : bareSettings.clock.nextBeat? .delay u now sampleTarget.interval = some v) :
    ∃ k', Occupied k' ∧
      Turns w₀ (.ticked now 0 .skipped :: past) (alone k' now (some v) none [0]) := by
  obtain ⟨hf, i, hi, hrun⟩ := hk
  obtain ⟨k', htick, hk'⟩ : ∃ k', k.tick sampleTarget now = (.skipped, k') ∧ Occupied k' := by
    obtain ⟨o, htick⟩ := Collector.tick_of_running (t := sampleTarget) now hi hrun
    exact ⟨_, htick, hf, i, hi, hrun⟩
  have hb : ∀ ready, (alone k now (some u) none ready).beatComes u = true :=
    fun _ => decide_eq_true hu
  have hw : ∀ ready, (alone k now (some u) none ready).tick sampleTarget =
      (.skipped, alone k' now (some u) none ready) := fun _ => tick_of_skipped htick
  have htold := timerTick?_of_comes (w := alone k now (some u) none [0]) (v := v) hf (hb _) hv
  have hm := moveTimer_of_comes (w := alone k now (some u) none []) (v := v) hf (hb _) hv
  rw [hw] at htold hm
  exact ⟨k', hk', h.goesOn htold hm⟩

/-- It waits for its next beat, and time passes up to it. -/
theorem Turns.rest {a : Instant} (h : Turns w₀ past (alone k now (some u) none [0]))
    (hk : Occupied k) (ha : bareSettings.clock.alarm u = a) (hu : now < a) :
    Turns w₀ past (alone k a (some u) none [0]) := by
  subst ha
  have hb : ∀ ready, (alone k now (some u) none ready).beatComes u = false :=
    fun _ => decide_eq_false (Nat.not_le.2 hu)
  have hm := moveTimer_of_not_comes (w := alone k now (some u) none []) hk.1 (hb _) sampleTarget
  have hturn := h.move (List.mem_singleton_self 0)
  have hafter : (alone k now (some u) none []).runMove 0 =
      alone k now (some u) (some (.alarm (bareSettings.clock.alarm u) true)) [] :=
    runMove_of_wait (x := ⟨0, .timer sampleTarget (some u), none⟩) rfl hm
  have htold : (alone k now (some u) none [0]).tick? 0 = none :=
    timerTick?_of_not_comes (hb _) sampleTarget
  rw [htold] at hturn
  have hwait : Turns w₀ past
      (alone k now (some u) (some (.alarm (bareSettings.clock.alarm u) true)) []) := hafter ▸ hturn
  have hlater := hwait.elapse rfl (Nat.le_of_lt hu) (by
    intro x hx a cut hx'
    obtain rfl := List.mem_singleton.1 hx
    cases hx'
    exact Nat.le_max_right _ _)
  exact hlater.wake fun _ => true

end Alone

end World

end DiskWatch
