/-
DiskWatch/Proofs/Admission.lean

One tick from its beginning to its end.  The ledger and the queue of its
category settle how it ends: a target without a record is not registered, one
that is shown running is skipped, and an idle one depends on the queue.

A tick that fails has already marked its target, and takes the mark back by the
identifier of its job.  In a sound ledger an idle record names no job, so taking
the mark back gives the very record that was there before (`release_mark`), and
every ledger of a run is sound (`ledger_sound`).  With this each of the four ends
of a tick says what the whole collector is afterwards (`tick_of_unregistered`,
`tick_of_running`, `tick_of_refused`, `tick_of_accepted`): nothing but the
running number and what the observers were told has changed, and besides that
only what the end of the tick stands for.
-/
import DiskWatch.Proofs.Conservation

namespace DiskWatch

/-! ### A mark that is taken back -/

theorem Item.unmark_mark {i : Item} (id : JobId) (hr : i.running = false) (hj : i.job = none) :
    (i.mark id).unmark = i := by
  cases i
  cases hr
  cases hj
  rfl

namespace Ledger

variable {l : Ledger} {name : String} {id : JobId} {f g : Item → Item} {p : Item → Bool}
  {i : Item}

/-- Two changes of the same record are one. -/
theorem changeFirst_changeFirst (hp : ∀ i, p (f i) = p i) (is : List Item) :
    changeFirst p g (changeFirst p f is) = changeFirst p (g ∘ f) is := by
  induction is with
  | nil => rfl
  | cons i is ih =>
    cases hi : p i with
    | true => simp [changeFirst, hi, hp]
    | false => simp [changeFirst, hi, ih]

theorem changeItem_changeItem (l : Ledger) (name : String) (hf : ∀ i, (f i).name = i.name) :
    (l.changeItem name f).changeItem name g = l.changeItem name (g ∘ f) := by
  have hp : ∀ i, ((f i).name == name) = (i.name == name) := fun i => by rw [hf]
  show { l with items := changeFirst _ g (changeFirst _ f l.items) } = l.changeItem name (g ∘ f)
  rw [changeFirst_changeFirst (p := (·.name == name)) hp]
  rfl

theorem changeItem_eq_self (hf : ∀ i, l.item? name = some i → f i = i) :
    l.changeItem name f = l := by
  show { l with items := changeFirst _ f l.items } = l
  rw [changeFirst_eq_self (p := (·.name == name)) hf]

theorem reserve_of_none (id : JobId) (hi : l.item? name = none) :
    l.reserve name id = (.unregistered, l) := by
  simp only [reserve, hi]

theorem reserve_of_running (id : JobId) (hi : l.item? name = some i) (hr : i.running = true) :
    l.reserve name id = (.alreadyRunning, l) := by
  simp only [reserve, hi, hr, if_true]

theorem reserve_of_idle (id : JobId) (hi : l.item? name = some i) (hr : i.running = false) :
    l.reserve name id = (.admitted, l.changeItem name (.mark id)) := by
  simp only [reserve, hi, hr, Bool.false_eq_true, if_false]

/-- An idle record of a sound ledger names no job. -/
theorem Sound.job_of_idle (h : l.Sound) (hi : l.item? name = some i) (hr : i.running = false) :
    i.job = none := by
  have hflag := h.flags i (mem_of_item? hi).1
  rw [hr] at hflag
  exact Option.not_isSome_iff_eq_none.1 (by rw [← hflag]; exact Bool.false_ne_true)

/-- Marking an idle target and releasing it gives the ledger that was there before. -/
theorem Sound.release_mark (h : l.Sound) (hi : l.item? name = some i) (hr : i.running = false) :
    (l.changeItem name (.mark id)).release name id = (true, l) := by
  have hm : (l.changeItem name (.mark id)).item? name = some (i.mark id) := by
    rw [item?_changeItem l name (f := .mark id) fun _ => rfl, hi, Option.map_some]
  have hholds : (l.changeItem name (.mark id)).holds name id = true := by
    rw [holds, hm]
    exact beq_self_eq_true _
  rw [Ledger.release, if_pos hholds, changeItem_changeItem l name (f := .mark id) fun _ => rfl]
  congr 1
  apply changeItem_eq_self
  intro j hj
  obtain rfl : i = j := Option.some.inj (hi.symm.trans hj)
  exact Item.unmark_mark id hr (h.job_of_idle hi hr)

end Ledger

/-! ### The four ends of a tick -/

namespace Collector

variable {k : Collector} {t : Target} {clock : Int} {job : Job} {i : Item}

/-- A tick is a draw, a decision of the ledger, and what follows from it. -/
theorem tick_eq (k : Collector) (t : Target) (clock : Int) :
    k.tick t clock =
      match (k.draw t clock).2.reserve (k.draw t clock).1 with
      | (.unregistered, k') => (.unregistered, k'.refuse (k.draw t clock).1)
      | (.alreadyRunning, k') => (.skipped, k'.skip (k.draw t clock).1)
      | (.admitted, k') =>
        match k'.enqueue (k.draw t clock).1 with
        | (some e, k') => (.enqueueFailed, k'.withdraw (k.draw t clock).1 e)
        | (none, k') => (.enqueued (k.draw t clock).1, k'.dispatch (k.draw t clock).1) := rfl

/-- The ledger alone decides about a drawn job, and it alone changes. -/
theorem reserve_draw {a : Admission} {l : Ledger}
    (h : (k.ledgers.get t.category).reserve t.name (k.draw t clock).1.id = (a, l)) : ∃ o,
    (k.draw t clock).2.reserve (k.draw t clock).1 = (a,
      { k with
        ledgers := k.ledgers.set t.category l
        drawn := k.drawn + 1
        telemetry := o }) := by
  have ha := congrArg Prod.fst h
  have hl := congrArg Prod.snd h
  subst ha hl
  exact ⟨_, rfl⟩

/-- A tick of a target without a record. -/
theorem tick_of_unregistered (clock : Int)
    (hi : (k.ledgers.get t.category).item? t.name = none) : ∃ o,
    k.tick t clock = (.unregistered, { k with drawn := k.drawn + 1, telemetry := o }) := by
  obtain ⟨o, hr⟩ := reserve_draw (Ledger.reserve_of_none (k.draw t clock).1.id hi)
  rw [PerCategory.set_get] at hr
  rw [tick_eq, hr]
  exact ⟨_, rfl⟩

/-- A tick of a target that is shown running. -/
theorem tick_of_running (clock : Int) (hi : (k.ledgers.get t.category).item? t.name = some i)
    (hrun : i.running = true) : ∃ o,
    k.tick t clock = (.skipped,
      { k with
        drawn := k.drawn + 1
        stats := { k.stats with skipped := k.stats.skipped + 1 }
        telemetry := o }) := by
  obtain ⟨o, hr⟩ := reserve_draw (Ledger.reserve_of_running (k.draw t clock).1.id hi hrun)
  rw [PerCategory.set_get] at hr
  rw [tick_eq, hr]
  exact ⟨_, rfl⟩

/-- The collector once the target of a tick is marked with its job. -/
def reserved (k : Collector) (t : Target) (id : JobId) (o : Telemetry) : Collector :=
  { k with
    ledgers := k.ledgers.set t.category ((k.ledgers.get t.category).changeItem t.name (.mark id))
    drawn := k.drawn + 1
    telemetry := o }

theorem reserve_draw_of_idle (clock : Int)
    (hi : (k.ledgers.get t.category).item? t.name = some i) (hidle : i.running = false) : ∃ o,
    (k.draw t clock).2.reserve (k.draw t clock).1 =
      (.admitted, k.reserved t (k.draw t clock).1.id o) := by
  apply reserve_draw
  exact Ledger.reserve_of_idle (k.draw t clock).1.id hi hidle

/-- A queue that is closed or full gives an error, and no other change. -/
theorem enqueue_of_refusal (job : Job) (hq : (k.queues.get job.category).consumed = false ∨
    (k.queues.get job.category).capacity ≤ (k.queues.get job.category).size) :
    ∃ e o, k.enqueue job = (some e, { k with telemetry := o }) := by
  obtain ⟨e, he⟩ : ∃ e, (k.enqueue job).1 = some e := by
    rw [(k.enqueue_eq job).1]
    rcases (k.queues.get job.category).offer_eq job with ⟨-, ho⟩ | ⟨-, -, ho⟩ | ⟨hc, hroom, -⟩
    · exact ⟨_, by rw [ho]; rfl⟩
    · exact ⟨_, by rw [ho]; rfl⟩
    · rcases hq with hq | hq
      · exact Bool.noConfusion (hq.symm.trans hc)
      · exact absurd hroom (Nat.not_lt.2 hq)
  have hsame : (k.enqueue job).2.queues = k.queues := (enqueue_some (Prod.ext he rfl)).1
  refine ⟨e, (k.enqueue job).2.telemetry, Prod.ext he ?_⟩
  rw [← hsame]
  rfl

/-- A queue that is there and has room takes the job in, with no other change. -/
theorem enqueue_of_room (job : Job) (hc : (k.queues.get job.category).consumed = true)
    (hs : (k.queues.get job.category).size < (k.queues.get job.category).capacity) :
    ∃ o, k.enqueue job = (none,
      { k with queues := k.queues.update job.category (·.push job), telemetry := o }) := by
  have he : (k.enqueue job).1 = none := by
    rw [(k.enqueue_eq job).1]
    rcases (k.queues.get job.category).offer_eq job with ⟨hn, -⟩ | ⟨-, hn, -⟩ | ⟨-, -, ho⟩
    · exact Bool.noConfusion (hn.symm.trans hc)
    · exact absurd hs (Nat.not_lt.2 hn)
    · rw [ho]; rfl
  have hpush : (k.enqueue job).2.queues = k.queues.update job.category (·.push job) := by
    rw [PerCategory.update_eq_set]
    exact (enqueue_none (Prod.ext he rfl)).2.2
  refine ⟨(k.enqueue job).2.telemetry, Prod.ext he ?_⟩
  rw [← hpush]
  rfl

/-- Withdrawing the job of a tick leaves its ledger as it was before the tick. -/
theorem withdraw_reserved (job : Job) (hs : (k.ledgers.get t.category).Sound)
    (hi : (k.ledgers.get t.category).item? t.name = some i) (hidle : i.running = false)
    (hn : job.target = t.name) (hc : job.category = t.category) (o : Telemetry) (e : Error) :
    ∃ o', (k.reserved t job.id o).withdraw job e =
      { k with
        drawn := k.drawn + 1
        stats := { k.stats with enqueueFailed := k.stats.enqueueFailed + 1 }
        telemetry := o' } := by
  have hback : ((k.reserved t job.id o).withdraw job e).ledgers = k.ledgers := by
    show (k.ledgers.set t.category _).update job.category
      (fun l => (l.release job.target job.id).2) = k.ledgers
    rw [hc, hn, PerCategory.update_set, hs.release_mark hi hidle, PerCategory.set_get]
  refine ⟨((k.reserved t job.id o).withdraw job e).telemetry, ?_⟩
  rw [← hback]
  rfl

/-- A tick of an idle target whose queue does not take the job in.  The mark is
taken back, so the ledger is what it was. -/
theorem tick_of_refused (clock : Int) (hs : (k.ledgers.get t.category).Sound)
    (hi : (k.ledgers.get t.category).item? t.name = some i) (hidle : i.running = false)
    (hq : (k.queues.get t.category).consumed = false ∨
      (k.queues.get t.category).capacity ≤ (k.queues.get t.category).size) : ∃ o,
    k.tick t clock = (.enqueueFailed,
      { k with
        drawn := k.drawn + 1
        stats := { k.stats with enqueueFailed := k.stats.enqueueFailed + 1 }
        telemetry := o }) := by
  obtain ⟨o₁, hr⟩ := reserve_draw_of_idle clock hi hidle
  obtain ⟨e, o₂, he⟩ := enqueue_of_refusal
    (k := k.reserved t (k.draw t clock).1.id o₁) (k.draw t clock).1 hq
  obtain ⟨o₃, hw⟩ := withdraw_reserved (k.draw t clock).1 hs hi hidle rfl rfl o₂ e
  refine ⟨o₃, ?_⟩
  simp only [tick_eq, hr, he]
  exact congrArg (Prod.mk TickOutcome.enqueueFailed) hw

/-- A tick of an idle target whose queue takes the job in. -/
theorem tick_of_accepted (clock : Int)
    (hi : (k.ledgers.get t.category).item? t.name = some i) (hidle : i.running = false)
    (hc : (k.queues.get t.category).consumed = true)
    (hs : (k.queues.get t.category).size < (k.queues.get t.category).capacity) : ∃ o,
    k.tick t clock = (.enqueued (k.draw t clock).1,
      { k with
        ledgers := k.ledgers.update t.category
          (·.changeItem t.name (.mark (k.draw t clock).1.id))
        queues := k.queues.update t.category (·.push (k.draw t clock).1)
        stats := { k.stats with enqueued := k.stats.enqueued + 1 }
        inFlight := k.inFlight.filter (·.id != (k.draw t clock).1.id) ++
          [.ofJob (k.draw t clock).1]
        drawn := k.drawn + 1
        telemetry := o }) := by
  obtain ⟨o₁, hr⟩ := reserve_draw_of_idle clock hi hidle
  obtain ⟨o₂, he⟩ := enqueue_of_room
    (k := k.reserved t (k.draw t clock).1.id o₁) (k.draw t clock).1 hc hs
  refine ⟨o₂, ?_⟩
  simp only [tick_eq, hr, he]
  rw [PerCategory.update_eq_set k.ledgers]
  rfl

end Collector

/-! ### A tick in a run -/

namespace Engine

variable {ok : Engine → Act → Prop} {r : Routine} {n : Nat} {past : List Act} {s s' : Engine}
  {t : Target} {clock : Int}

/-- Every step keeps a ledger sound. -/
theorem LedgerStep.sound {c : Category} {e : Act} (hl : LedgerStep c s e s')
    (hs : (s.ledger c).Sound) : (s'.ledger c).Sound := by
  cases hl with
  | still hl => rw [hl]; exact hs
  | register name hl => rw [hl]; exact hs.register c name
  | reserve job a _ _ _ hl => rw [hl]; exact hs.reserve job.target job.id
  | withdraw job _ _ _ _ hl => rw [hl]; exact hs.release job.target job.id
  | begin _ job now _ _ _ hl => rw [hl]; exact hs.start job now
  | settle _ job now duration _ _ _ hl => rw [hl]; exact hs.clear job.id now duration
  | depth _ hl => rw [hl]; exact ⟨hs.names, hs.flags⟩

/-- The ledgers of a run are sound, whatever the identifiers are. -/
theorem ledger_sound (h : RunUnder ok r n past s) (c : Category) : (s.ledger c).Sound := by
  induction h with
  | start =>
    rw [ledger_start]
    exact Ledger.Sound.empty
  | step _ hs _ ih => exact (hs.ledger c).sound ih

/-- A draw gives an identifier that no earlier job has. -/
theorem draw_fresh (h : RunUnder ok r n past s) (few : (jobs Act.drawn? past).length < 2 ^ 64)
    (t : Target) (clock : Int) :
    (s.collector.draw t clock).1.id ∉ (jobs Act.drawn? past).map Job.id := by
  have hdraw : s.collector.draw t clock = ((s.collector.draw t clock).1, _) := rfl
  have hnext : Run r n (.draw (s.collector.draw t clock).1 :: past) _ :=
    h.run.step (.draw hdraw) trivial
  have hjobs : jobs Act.drawn? (.draw (s.collector.draw t clock).1 :: past) =
      jobs Act.drawn? past ++ [(s.collector.draw t clock).1] := jobs_cons _ _ _
  have hn := ids_nodup hnext (by rw [hjobs, List.length_append]; exact few)
  rw [hjobs, List.map_append, List.nodup_append'] at hn
  intro hmem
  exact hn.2.2 hmem (List.mem_singleton_self _)

/-- Where identifiers differ, the record of a new job replaces no other. -/
theorem filter_inFlight (h : RunUnder ok r n past s)
    (few : (jobs Act.drawn? past).length < 2 ^ 64) (t : Target) (clock : Int) :
    s.collector.inFlight.filter (·.id != (s.collector.draw t clock).1.id) =
      s.collector.inFlight := by
  rw [List.filter_eq_self, inFlight_eq h (distinct_of_few h few)]
  intro d hd
  obtain ⟨job, hj, rfl⟩ := List.mem_map.1 hd
  have hdrawn : job ∈ jobs Act.drawn? past := drawn_of_dispatched h (mem_watched.1 hj).1
  apply bne_iff_ne.2
  intro hid
  exact draw_fresh h few t clock (List.mem_map.2 ⟨job, hdrawn, hid⟩)

/-- In every run, and for every target, a tick that nobody interrupts ends as the
ledger and the queue of its category have it: unregistered without a record,
skipped where the record is shown running, failed where it is idle and the queue
is closed or full, and enqueued otherwise.  A tick that is not enqueued leaves
the ledgers, the queues and the jobs in flight as they were, and is counted once
if it was skipped or failed.  An enqueued one marks its target with the
identifier of its job, puts the job at the end of its queue, counts it and adds
it to the jobs in flight, and changes nothing else of these; and as long as
running numbers do not repeat, the identifier is new. -/
theorem tick_exact (h : Run r n past s) (t : Target) (clock : Int)
    {outcome : Collector.TickOutcome} {k : Collector}
    (ht : s.collector.tick t clock = (outcome, k)) :
    (outcome = .unregistered ↔ (s.ledger t.category).item? t.name = none) ∧
    (outcome = .skipped ↔ ∃ i, (s.ledger t.category).item? t.name = some i ∧ i.running = true) ∧
    (outcome = .enqueueFailed ↔
      (∃ i, (s.ledger t.category).item? t.name = some i ∧ i.running = false) ∧
        ((s.queue t.category).consumed = false ∨
          (s.queue t.category).size = (s.queue t.category).capacity)) ∧
    ((∃ job, outcome = .enqueued job) ↔
      (∃ i, (s.ledger t.category).item? t.name = some i ∧ i.running = false) ∧
        (s.queue t.category).consumed = true ∧
          (s.queue t.category).size < (s.queue t.category).capacity) ∧
    ((∀ job, outcome ≠ .enqueued job) →
      k.ledgers = s.collector.ledgers ∧ k.queues = s.collector.queues ∧
        k.inFlight = s.collector.inFlight) ∧
    (outcome = .unregistered → k.stats = s.totals) ∧
    (outcome = .skipped → k.stats = { s.totals with skipped := s.totals.skipped + 1 }) ∧
    (outcome = .enqueueFailed →
      k.stats = { s.totals with enqueueFailed := s.totals.enqueueFailed + 1 }) ∧
    ∀ job, outcome = .enqueued job →
      (job.target = t.name ∧ job.kind = t.kind ∧ job.timeout = t.timeout ∧
        job.interval = t.interval) ∧
      (k.ledgers = s.collector.ledgers.update t.category (·.changeItem t.name (.mark job.id)) ∧
        ∀ other, (k.ledgers.get t.category).item? other =
          if other = t.name then ((s.ledger t.category).item? t.name).map (.mark job.id)
          else (s.ledger t.category).item? other) ∧
      k.queues = s.collector.queues.update t.category (·.push job) ∧
      k.stats = { s.totals with enqueued := s.totals.enqueued + 1 } ∧
      .ofJob job ∈ k.inFlight ∧
      ((jobs Act.drawn? past).length < 2 ^ 64 →
        job.id ∉ (jobs Act.drawn? past).map Job.id ∧
          k.inFlight = s.collector.inFlight ++ [.ofJob job]) := by
  have hs := ledger_sound h t.category
  have hl := line h t.category
  have hle : (s.queue t.category).size ≤ (s.queue t.category).capacity := hl.capacity ▸ hl.size_le
  rcases hi : (s.ledger t.category).item? t.name with - | i
  · obtain ⟨o, hk⟩ := Collector.tick_of_unregistered clock hi
    obtain ⟨rfl, rfl⟩ := Prod.mk.inj (ht.symm.trans hk)
    simp [totals]
  rcases Bool.eq_false_or_eq_true i.running with hr | hr
  · obtain ⟨o, hk⟩ := Collector.tick_of_running clock hi hr
    obtain ⟨rfl, rfl⟩ := Prod.mk.inj (ht.symm.trans hk)
    simp [totals, hr]
  by_cases hq : (s.queue t.category).consumed = false ∨
      (s.queue t.category).size = (s.queue t.category).capacity
  · obtain ⟨o, hk⟩ := Collector.tick_of_refused clock hs hi hr (hq.imp_right Eq.ge)
    obtain ⟨rfl, rfl⟩ := Prod.mk.inj (ht.symm.trans hk)
    have hshut : (s.queue t.category).consumed = true →
        (s.queue t.category).capacity ≤ (s.queue t.category).size := by
      intro hc
      exact (hq.resolve_left (by simp [hc])).ge
    simpa [totals, hr, hq] using hshut
  · obtain ⟨hc, hfull⟩ := not_or.1 hq
    rw [Bool.not_eq_false] at hc
    have hroom := Nat.lt_of_le_of_ne hle hfull
    obtain ⟨o, hk⟩ := Collector.tick_of_accepted clock hi hr hc hroom
    obtain ⟨rfl, rfl⟩ := Prod.mk.inj (ht.symm.trans hk)
    refine ⟨by simp, by simp [hr], by simp [hc, hfull], by simp [hr, hc, hroom], by simp,
      by simp, by simp, by simp, ?_⟩
    rintro job ⟨⟩
    refine ⟨⟨rfl, rfl, rfl, rfl⟩, ⟨rfl, ?_⟩, rfl, rfl, ?_, ?_⟩
    · intro other
      rw [PerCategory.get_update]
      split
      · next ho =>
        rw [ho, Ledger.item?_changeItem _ _ (f := .mark _) fun _ => rfl]
        exact congrArg _ hi
      · next ho => exact Ledger.item?_changeItem_of_ne _ ho fun _ => rfl
    · exact List.mem_append_right _ (List.mem_singleton_self _)
    · intro few
      exact ⟨draw_fresh h few t clock, congrArg (· ++ _) (filter_inFlight h few t clock)⟩

/-- The one place in the queue is taken by another target: the tick fails, and its
own target is as idle as before. -/
theorem tick_exact_at_full_queue : ∃ past s outcome k, Run .standard 1 past s ∧
    s.collector.tick sampleTarget 8 = (outcome, k) ∧ outcome = .enqueueFailed ∧
    k.ledgers = s.collector.ledgers ∧ k.queues = s.collector.queues ∧
    k.inFlight = s.collector.inFlight ∧
    k.stats = { s.totals with enqueueFailed := s.totals.enqueueFailed + 1 } := by
  have h₀ : Run .standard 1 [] _ := .start rfl
  have h₁ := h₀.step (.register _ sampleTarget) trivial
  have h₂ := h₁.step (.register _ { sampleTarget with name := "home" }) trivial
  have h₃ := h₂.handedOver (fun _ _ _ => trivial) { sampleTarget with name := "home" } 7 rfl
  obtain ⟨-, -, hfail, -, hkept, -, -, hstats, -⟩ := tick_exact h₃ sampleTarget 8 rfl
  have hout := hfail.2 ⟨⟨_, rfl, rfl⟩, .inr rfl⟩
  obtain ⟨hl, hq, hf⟩ := hkept (by rw [hout]; simp)
  exact ⟨_, _, _, _, h₃, rfl, hout, hl, hq, hf, hstats hout⟩

end Engine

end DiskWatch
