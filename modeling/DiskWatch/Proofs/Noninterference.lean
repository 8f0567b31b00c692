/-
DiskWatch/Proofs/Noninterference.lean

The two categories do not interfere.

What belongs to a category is its `Side`: its ledger, its queue, the hand-overs of
its jobs that are on record, and its desk.  A side goes on by itself (`Side.step`);
it has no access to the other one.  A request of a session does to the side of its
category just that, and leaves the other side alone (`side_step`, `side_step_away`).
A side treats all identifiers alike (`Side.step_rename`).

What a side cannot make by itself are the identifiers, which are numbered through
the whole session, and the numbers of the spans.  Without the requests of the other
category the same requests draw other identifiers, and each category meets what it
met before, under these other names (`Session.noninterference`).
-/
import DiskWatch.Proofs.HandOver
import DiskWatch.Proofs.Renaming
import DiskWatch.Proofs.Session
import Mathlib.Data.List.Find

namespace DiskWatch

/-! ### The side of a category -/

/-- What the collector holds for one category. -/
structure Share where
  ledger : Ledger
  queue : Queue
  /-- The hand-overs on record. -/
  flights : List Dispatch

/-- All that belongs to one category. -/
structure Side where
  share : Share
  desk : Desk

/-- What the collector holds for a category. -/
def Collector.share (k : Collector) (c : Category) : Share :=
  ⟨k.ledgers.get c, k.queues.get c, k.inFlight.filter (·.category = c)⟩

/-- All that belongs to a category in a session. -/
def Session.side (s : Session) (c : Category) : Side := ⟨s.collector.share c, s.desk c⟩

/-- What a category is given from outside with a request: the job that is drawn,
and the number of the span that is opened. -/
structure Given where
  job? : Option Job
  span : Nat

/-- What a session gives with a request. -/
def Session.given (s : Session) : Request → Given
  | .draw t clock => ⟨some (s.collector.draw t clock).1, 0⟩
  | .begin job now => ⟨none, (s.collector.begin job now).1⟩
  | _ => ⟨none, 0⟩

namespace Share

/-- Changes the ledger. -/
def withLedger (h : Share) (f : Ledger → Ledger) : Share := { h with ledger := f h.ledger }

/-- Changes the queue. -/
def withQueue (h : Share) (f : Queue → Queue) : Share := { h with queue := f h.queue }

/-- Strikes the hand-over of a job out. -/
def forget (h : Share) (id : JobId) : Share :=
  { h with flights := h.flights.filter (·.id != id) }

/-- Puts the hand-over of a job on record. -/
def remember (h : Share) (job : Job) : Share :=
  { h.forget job.id with flights := (h.forget job.id).flights ++ [.ofJob job] }

/-- The next step of a tick. -/
def advance (h : Share) (job : Job) : TickStage → Standing × Share
  | .drawn =>
    (.under (.decided (h.ledger.reserve job.target job.id).1),
      h.withLedger fun l => (l.reserve job.target job.id).2)
  | .decided .unregistered => (.ended .unregistered, h)
  | .decided .alreadyRunning => (.ended .skipped, h)
  | .decided .admitted =>
    (.under (.offered (Collector.offerError? job.category h.queue (h.queue.offer job).1)),
      h.withQueue fun q => (q.offer job).2)
  | .offered (some _) =>
    (.ended .enqueueFailed, h.withLedger fun l => (l.release job.target job.id).2)
  | .offered none => (.ended (.enqueued job), h.remember job)

/-- Whether this very job is still under way. -/
def pending (h : Share) (id : JobId) : Bool :=
  match h.flights.find? (·.id == id) with
  | none => false
  | some d => h.ledger.shows d.target id

end Share

namespace Side

/-- What a request about the category does. -/
def step (policy : RetryPolicy) (cancelled : Bool) (new : Given) (v : Side) : Request → Side
  | .register t => { v with share := v.share.withLedger (·.register t.category t.name) }
  | .draw _ _ =>
    match new.job? with
    | none => v
    | some job => { v with desk := v.desk.addTick ⟨job, .under .drawn⟩ }
  | .advance _ i =>
    match v.desk.stage? i with
    | none => v
    | some (job, stage) =>
      let (standing, share) := v.share.advance job stage
      ⟨share, v.desk.setTick i ⟨job, standing⟩⟩
  | .watch _ i =>
    match v.desk.watched? i with
    | none => v
    | some job => { v with desk := v.desk.addLook (v.share.pending job.id) }
  | .close _ i _ _ =>
    match v.desk.watched? i with
    | none => v
    | some job => { v with share := v.share.forget job.id }
  | .take _ => ⟨v.share.withQueue (·.take.2), v.desk.deliver v.share.queue.take.1⟩
  | .begin job now =>
    ⟨v.share.withLedger fun l => (l.start job now).2,
      v.desk.addCall ⟨job, new.span, .under (Measurement.take policy job.kind job.timeout)⟩⟩
  | .answer _ i a =>
    match v.desk.rest? i with
    | none => v
    | some (job, span, rest) =>
      let cancelled := job.stop.given cancelled
      { v with desk := v.desk.setCall i ⟨job, span, .under (rest.after cancelled a)⟩ }
  | .settle _ i now duration =>
    match v.desk.rest? i with
    | some (job, span, .done result) =>
      ⟨v.share.withLedger fun l => (l.clear job.id now duration).2,
        v.desk.setCall i ⟨job, span, .reported result duration⟩⟩
    | _ => v
  | .stop _ => { v with share := v.share.withQueue Queue.dropConsumer }
  | .operate op => { v with share := v.share.withLedger op.change }
  | .sampleDepth _ => { v with share := v.share.withLedger (·.setDepth v.share.queue.size) }
  | .shutdown => v

end Side

/-! ### A side goes on by itself -/

namespace Collector

variable {k : Collector} {job : Job} {c : Category} {id : JobId}

/-- A change to the ledger of a category is seen in its share and in no other. -/
theorem share_of_ledgers {k' : Collector} {d : Category} {f : Ledger → Ledger}
    (hl : k'.ledgers = k.ledgers.update d f) (hq : k'.queues = k.queues)
    (hf : k'.inFlight = k.inFlight) (c : Category) :
    k'.share c = if c = d then (k.share c).withLedger f else k.share c := by
  rw [share, hl, hq, hf]
  split
  · next hc =>
    rw [hc, PerCategory.get_update]
    rfl
  · next hc =>
    rw [PerCategory.get_update_of_ne _ _ hc]
    rfl

/-- A change to the queue of a category is seen in its share and in no other. -/
theorem share_of_queues {k' : Collector} {d : Category} {f : Queue → Queue}
    (hl : k'.ledgers = k.ledgers) (hq : k'.queues = k.queues.update d f)
    (hf : k'.inFlight = k.inFlight) (c : Category) :
    k'.share c = if c = d then (k.share c).withQueue f else k.share c := by
  rw [share, hl, hq, hf]
  split
  · next hc =>
    rw [hc, PerCategory.get_update]
    rfl
  · next hc =>
    rw [PerCategory.get_update_of_ne _ _ hc]
    rfl

theorem share_register (k : Collector) (t : Target) (c : Category) :
    (k.register t).share c =
      if c = t.category then (k.share c).withLedger (·.register t.category t.name)
      else k.share c := by
  apply share_of_ledgers <;> rfl

theorem share_reserve (k : Collector) (job : Job) (c : Category) :
    (k.reserve job).2.share c =
      if c = job.category then (k.share c).withLedger fun l => (l.reserve job.target job.id).2
      else k.share c := by
  apply share_of_ledgers
  · rw [PerCategory.update_eq_set]
    rfl
  all_goals rfl

theorem share_enqueue (k : Collector) (job : Job) (c : Category) :
    (k.enqueue job).2.share c =
      if c = job.category then (k.share c).withQueue fun q => (q.offer job).2
      else k.share c := by
  apply share_of_queues
  case hq =>
    rw [PerCategory.update_eq_set]
    rfl
  all_goals rfl

theorem share_withdraw (k : Collector) (job : Job) (e : Error) (c : Category) :
    (k.withdraw job e).share c =
      if c = job.category then (k.share c).withLedger fun l => (l.release job.target job.id).2
      else k.share c := by
  apply share_of_ledgers <;> rfl

theorem share_takeJob (k : Collector) (d c : Category) :
    (k.takeJob d).2.share c =
      if c = d then (k.share c).withQueue (·.take.2)
      else k.share c := by
  apply share_of_queues
  case hq =>
    rw [PerCategory.update_eq_set]
    rfl
  all_goals rfl

theorem share_stopWorker (k : Collector) (d c : Category) :
    (k.stopWorker d).share c =
      if c = d then (k.share c).withQueue Queue.dropConsumer
      else k.share c := by
  apply share_of_queues <;> rfl

theorem share_begin (k : Collector) (job : Job) (now : Instant) (c : Category) :
    (k.begin job now).2.share c =
      if c = job.category then (k.share c).withLedger fun l => (l.start job now).2
      else k.share c := by
  apply share_of_ledgers
  · rw [PerCategory.update_eq_set]
    rfl
  all_goals rfl

theorem share_settle (k : Collector) (job : Job) (span : Nat) (now : Instant)
    (result : Except Error Measurement) (duration : Duration) (c : Category) :
    (k.settle job span now result duration).share c =
      if c = job.category then (k.share c).withLedger fun l => (l.clear job.id now duration).2
      else k.share c := by
  apply share_of_ledgers
  · rw [PerCategory.update_eq_set]
    rfl
  all_goals rfl

theorem share_sampleDepth (k : Collector) (d c : Category) :
    (k.sampleDepth d).share c =
      if c = d then (k.share c).withLedger (·.setDepth (k.queues.get d).size)
      else k.share c := by
  apply share_of_ledgers <;> rfl

theorem share_operate (k : Collector) (op : Operation) (c : Category) :
    ({ k with ledgers := op.apply k.ledgers } : Collector).share c =
      if c = op.category then (k.share c).withLedger op.change
      else k.share c := by
  apply share_of_ledgers <;> rfl

theorem share_hear {α : Type} (k : Collector) (c : Category) (span : Nat) (rest : Activity α) :
    (k.hear span rest).share c = k.share c := by
  cases rest <;> rfl

/-- A hand-over of another category is not taken for that of this job. -/
theorem filter_flights (hk : k.FlightsSorted) {d : Category} (hid : id.Of d) (c : Category) :
    (k.inFlight.filter (·.id != id)).filter (·.category = c) =
      if c = d then (k.share c).flights.filter (·.id != id) else (k.share c).flights := by
  split
  · simp only [share, List.filter_filter, Bool.and_comm]
  · next hc =>
    rw [List.filter_filter]
    apply List.filter_congr
    intro e he
    by_cases hec : e.category = c
    · have hne : e.id ≠ id := fun heq => hc (hec ▸ (hk e he).unique (heq ▸ hid))
      simp [hec, hne]
    · simp [hec]

theorem share_closeWatch (hk : k.FlightsSorted) {d : Category} (hid : id.Of d)
    (cycle : Option Nat) (v : Verdict) (elapsed : Duration) (c : Category) :
    (k.closeWatch id cycle v elapsed).share c =
      if c = d then (k.share c).forget id else k.share c := by
  have hfilter := filter_flights hk hid c
  simp only [closeWatch, share, concludeCycle, observe] at hfilter ⊢
  rw [hfilter]
  split <;> rfl

theorem share_dispatch (hk : k.FlightsSorted) (hid : job.id.Of job.category) (c : Category) :
    (k.dispatch job).share c =
      if c = job.category then (k.share c).remember job else k.share c := by
  have hfilter := filter_flights hk hid c
  simp only [share, dispatch, List.filter_append] at hfilter ⊢
  rw [hfilter]
  split
  · next hc => simp [Share.remember, Share.forget, Dispatch.ofJob, hc]
  · next hc => simp [Dispatch.ofJob, Ne.symm hc]

/-- A step of a tick does to the share of its category what it would do there alone,
and leaves the other share as it is. -/
theorem share_advance (hk : k.FlightsSorted) (hid : job.id.Of job.category) (stage : TickStage)
    (c : Category) :
    (k.advance job stage).2.share c =
      if c = job.category then ((k.share c).advance job stage).2 else k.share c := by
  cases stage with
  | drawn => exact k.share_reserve job c
  | decided a =>
    cases a with
    | unregistered | alreadyRunning => exact (ite_self _).symm
    | admitted => exact k.share_enqueue job c
  | offered e =>
    cases e with
    | some e => exact k.share_withdraw job e c
    | none => exact share_dispatch hk hid c

/-- How a tick goes on depends on the share of its category. -/
theorem standing_advance (k : Collector) (job : Job) (stage : TickStage) :
    (k.advance job stage).1 = ((k.share job.category).advance job stage).1 := by
  rcases stage with - | (- | - | -) | (- | -) <;> rfl

/-- Whether a job is under way can be told from the share of its category. -/
theorem pending_share (hk : k.FlightsSorted) (hid : id.Of c) :
    (k.share c).pending id = k.pending id := by
  have hown : ∀ d ∈ k.inFlight, (d.id == id) = true → d.category = c := fun d hd hdid =>
    (hk d hd).unique (beq_iff_eq.1 hdid ▸ hid)
  have hfind : (k.inFlight.filter (·.category = c)).find? (·.id == id) = k.dispatch? id := by
    rw [List.find?_filter, dispatch?]
    apply List.find?_congr
    intro d hd
    cases hdid : d.id == id with
    | false => simp
    | true => simp [hown d hd hdid]
  cases hd : k.dispatch? id with
  | none => simp only [Share.pending, pending, share, hfind, hd]
  | some d =>
    have hdid := List.find?_some (p := fun d : Dispatch => d.id == id) hd
    have hdc := hown d (List.mem_of_find?_eq_some hd) hdid
    simp only [Share.pending, pending, share, hfind, hd, hdc]

end Collector

namespace Session

variable (policy : RetryPolicy) {s : Session} {c : Category} {req : Request}

@[simp] theorem collector_put (s : Session) (c : Category) (k : Collector) (f : Desk → Desk) :
    (s.put c k f).collector = k := rfl

theorem side_put (s : Session) (c : Category) (k : Collector) (f : Desk → Desk) :
    (s.put c k f).side c = ⟨k.share c, f (s.desk c)⟩ := by
  rw [side, desk_put]
  rfl

@[simp] theorem desk_put_away {d : Category} (hc : c ≠ d) (k : Collector) (f : Desk → Desk) :
    (s.put d k f).desk c = s.desk c := PerCategory.get_update_of_ne _ _ hc

theorem side_put_away {d : Category} (hc : c ≠ d) (k : Collector) (f : Desk → Desk) :
    (s.put d k f).side c = ⟨k.share c, s.desk c⟩ := by
  rw [side, desk_put_away hc]
  rfl

/-- A request does to the side of its category what it would do there alone. -/
theorem side_step (h : s.Sorted) (ht : req.touches c = true) :
    (s.step policy req).side c =
      (s.side c).step policy s.collector.shutdown (s.given req) req := by
  cases req with
  | shutdown => rfl
  | register t =>
    obtain rfl : t.category = c := beq_iff_eq.1 ht
    exact congrArg (Side.mk · _) ((s.collector.share_register t _).trans (if_pos rfl))
  | draw t clock =>
    obtain rfl : t.category = c := beq_iff_eq.1 ht
    exact side_put ..
  | advance d i =>
    obtain rfl : d = c := beq_iff_eq.1 ht
    cases hi : (s.desk d).stage? i with
    | none => simp only [step, Side.step, side, hi]
    | some p =>
      obtain ⟨job, stage⟩ := p
      obtain ⟨rfl, hid⟩ := (h.desks d).stage? hi
      simp only [step, Side.step, side, hi]
      rw [← side, side_put, Collector.share_advance h.flights hid, if_pos rfl,
        Collector.standing_advance]
  | watch d i =>
    obtain rfl : d = c := beq_iff_eq.1 ht
    cases hi : (s.desk d).watched? i with
    | none => simp only [step, Side.step, side, hi]
    | some job =>
      have hpending := Collector.pending_share h.flights ((h.desks d).watched? hi).2
      simp only [step, Side.step, side, hi]
      rw [← side, side_put, hpending]
  | close d i v elapsed =>
    obtain rfl : d = c := beq_iff_eq.1 ht
    cases hi : (s.desk d).watched? i with
    | none => simp only [step, Side.step, side, hi]
    | some job =>
      have hid := ((h.desks d).watched? hi).2
      simp only [step, Side.step, side, hi]
      rw [Collector.share_closeWatch h.flights hid, if_pos rfl]
      rfl
  | take d =>
    obtain rfl : d = c := beq_iff_eq.1 ht
    show (s.put d (s.collector.takeJob d).2 _).side d = _
    rw [side_put, Collector.share_takeJob, if_pos rfl]
    rfl
  | begin job now =>
    obtain rfl : job.category = c := beq_iff_eq.1 ht
    show (s.put job.category (s.collector.begin job now).2 _).side job.category = _
    rw [side_put, Collector.share_begin, if_pos rfl]
    rfl
  | answer d i a =>
    obtain rfl : d = c := beq_iff_eq.1 ht
    cases hi : (s.desk d).rest? i with
    | none => simp only [step, Side.step, side, hi]
    | some p =>
      obtain ⟨job, span, rest⟩ := p
      simp only [step, Side.step, side, hi]
      rw [← side, side_put, Collector.share_hear]
  | settle d i now duration =>
    obtain rfl : d = c := beq_iff_eq.1 ht
    cases hi : (s.desk d).rest? i with
    | none => simp only [step, Side.step, side, hi]
    | some p =>
      obtain ⟨job, span, rest⟩ := p
      obtain rfl := (h.desks d).rest? hi
      cases rest with
      | done result =>
        simp only [step, Side.step, side, hi]
        rw [← side, side_put, Collector.share_settle, if_pos rfl]
      | _ => simp only [step, Side.step, side, hi]
  | stop d =>
    obtain rfl : d = c := beq_iff_eq.1 ht
    exact congrArg (Side.mk · _) ((s.collector.share_stopWorker d d).trans (if_pos rfl))
  | operate op =>
    obtain rfl : op.category = c := beq_iff_eq.1 ht
    exact congrArg (Side.mk · _) ((s.collector.share_operate op _).trans (if_pos rfl))
  | sampleDepth d =>
    obtain rfl : d = c := beq_iff_eq.1 ht
    exact congrArg (Side.mk · _) ((s.collector.share_sampleDepth d d).trans (if_pos rfl))

/-- A request leaves the side of another category alone. -/
theorem side_step_away (h : s.Sorted) (ht : req.touches c = false) :
    (s.step policy req).side c = s.side c := by
  have hne : ∀ d, req.category? = some d → c ≠ d := by
    rintro d hd rfl
    simp [Request.touches, hd] at ht
  cases req with
  | shutdown => cases ht
  | register t =>
    exact congrArg (Side.mk · _) ((s.collector.share_register t c).trans (if_neg (hne _ rfl)))
  | draw t clock => exact side_put_away (hne _ rfl) ..
  | advance d i =>
    simp only [step]
    split
    · rfl
    · next job stage hi =>
      obtain ⟨rfl, hid⟩ := (h.desks d).stage? hi
      rw [side_put_away (hne _ rfl), Collector.share_advance h.flights hid, if_neg (hne _ rfl)]
      rfl
  | watch d i =>
    simp only [step]
    split
    · rfl
    · exact side_put_away (hne _ rfl) ..
  | close d i v elapsed =>
    simp only [step]
    split
    · rfl
    · next job hi =>
      have hid := ((h.desks d).watched? hi).2
      exact congrArg (Side.mk · _)
        ((Collector.share_closeWatch h.flights hid _ _ _ c).trans (if_neg (hne _ rfl)))
  | take d =>
    show (s.put d (s.collector.takeJob d).2 _).side c = _
    rw [side_put_away (hne _ rfl), Collector.share_takeJob, if_neg (hne _ rfl)]
    rfl
  | begin job now =>
    show (s.put job.category (s.collector.begin job now).2 _).side c = _
    rw [side_put_away (hne _ rfl), Collector.share_begin, if_neg (hne _ rfl)]
    rfl
  | answer d i a =>
    simp only [step]
    split
    · rfl
    · rw [side_put_away (hne _ rfl), Collector.share_hear]
      rfl
  | settle d i now duration =>
    simp only [step]
    split
    · next job span result hi =>
      obtain rfl := (h.desks d).rest? hi
      rw [side_put_away (hne _ rfl), Collector.share_settle, if_neg (hne _ rfl)]
      rfl
    · rfl
  | stop d =>
    exact congrArg (Side.mk · _) ((s.collector.share_stopWorker d c).trans (if_neg (hne _ rfl)))
  | operate op =>
    exact congrArg (Side.mk · _) ((s.collector.share_operate op c).trans (if_neg (hne _ rfl)))
  | sampleDepth d =>
    exact congrArg (Side.mk · _) ((s.collector.share_sampleDepth d c).trans (if_neg (hne _ rfl)))

end Session

/-! ### A side under other identifiers -/

section Renaming

variable (f : Equiv.Perm JobId)

/-- The same outcome for the job under another identifier. -/
def Collector.TickOutcome.rename : Collector.TickOutcome → Collector.TickOutcome
  | .enqueued job => .enqueued (job.rename f)
  | .skipped => .skipped
  | .enqueueFailed => .enqueueFailed
  | .unregistered => .unregistered

def Standing.rename : Standing → Standing
  | .under stage => .under stage
  | .ended outcome => .ended (outcome.rename f)

def TickRecord.rename (t : TickRecord) : TickRecord := ⟨t.job.rename f, t.standing.rename f⟩

/-- The process call under another identifier, without the number of its span. -/
def CallRecord.rename (k : CallRecord) : CallRecord := ⟨k.job.rename f, 0, k.handling⟩

def Dispatch.rename (d : Dispatch) : Dispatch := { d with id := f d.id }

namespace Desk

/-- The desk with its jobs under other identifiers. -/
def rename (d : Desk) : Desk where
  ticks := d.ticks.map (TickRecord.rename f)
  deliveries := d.deliveries.map (Delivery.rename f)
  calls := d.calls.map (CallRecord.rename f)
  looks := d.looks

theorem stage?_rename (d : Desk) (i : Nat) :
    (d.rename f).stage? i = (d.stage? i).map fun p => (p.1.rename f, p.2) := by
  rw [stage?, stage?, rename, List.getElem?_map]
  rcases d.ticks[i]? with - | ⟨job, - | -⟩ <;> rfl

theorem watched?_rename (d : Desk) (i : Nat) :
    (d.rename f).watched? i = (d.watched? i).map (Job.rename f) := by
  rw [watched?, watched?, rename, List.getElem?_map]
  rcases d.ticks[i]? with - | ⟨job, - | (- | - | - | -)⟩ <;> rfl

theorem rest?_rename (d : Desk) (i : Nat) :
    (d.rename f).rest? i = (d.rest? i).map fun p => (p.1.rename f, 0, p.2.2) := by
  rw [rest?, rest?, rename, List.getElem?_map]
  rcases d.calls[i]? with - | ⟨job, span, - | -⟩ <;> rfl

theorem addTick_rename (d : Desk) (t : TickRecord) :
    (d.addTick t).rename f = (d.rename f).addTick (t.rename f) := by
  simp [addTick, rename]

theorem setTick_rename (d : Desk) (i : Nat) (t : TickRecord) :
    (d.setTick i t).rename f = (d.rename f).setTick i (t.rename f) := by
  simp [setTick, rename, List.map_set]

theorem deliver_rename (d : Desk) (delivery : Delivery) :
    (d.deliver delivery).rename f = (d.rename f).deliver (delivery.rename f) := by
  simp [deliver, rename]

theorem addCall_rename (d : Desk) (k : CallRecord) :
    (d.addCall k).rename f = (d.rename f).addCall (k.rename f) := by
  simp [addCall, rename]

theorem setCall_rename (d : Desk) (i : Nat) (k : CallRecord) :
    (d.setCall i k).rename f = (d.rename f).setCall i (k.rename f) := by
  simp [setCall, rename, List.map_set]

end Desk

namespace Share

/-- The share with its jobs under other identifiers. -/
def rename (h : Share) : Share where
  ledger := h.ledger.rename f
  queue := h.queue.rename f
  flights := h.flights.map (Dispatch.rename f)

theorem filter_flights_rename (flights : List Dispatch) (id : JobId) :
    (flights.map (Dispatch.rename f)).filter (·.id != f id) =
      (flights.filter (·.id != id)).map (Dispatch.rename f) := by
  rw [List.filter_map]
  congr 1
  apply List.filter_congr
  intro d _
  exact congrArg not (beq_rename f d.id id)

theorem forget_rename (h : Share) (id : JobId) :
    (h.rename f).forget (f id) = (h.forget id).rename f := by
  simp only [forget, rename, filter_flights_rename]

/-- The next step of a tick treats all identifiers alike. -/
theorem advance_rename (h : Share) (job : Job) (stage : TickStage) :
    (h.rename f).advance (job.rename f) stage =
      ((h.advance job stage).1.rename f, (h.advance job stage).2.rename f) := by
  cases stage with
  | drawn =>
    have hreserve := h.ledger.reserve_rename f job.target job.id
    simp only [advance, withLedger, rename, Job.rename, hreserve]
    rfl
  | decided a =>
    cases a with
    | unregistered | alreadyRunning => rfl
    | admitted =>
      have hoffer := h.queue.offer_rename f job
      simp only [advance, withQueue, rename, hoffer]
      rfl
  | offered e =>
    cases e with
    | some e =>
      have hrelease := h.ledger.release_rename f job.target job.id
      simp only [advance, withLedger, rename, Job.rename, hrelease]
      rfl
    | none =>
      have hforget := h.forget_rename f job.id
      simp only [advance, remember, Job.rename, hforget]
      simp only [rename, List.map_append]
      rfl

theorem pending_rename (h : Share) (id : JobId) :
    (h.rename f).pending (f id) = h.pending id := by
  have hfind : (h.flights.map (Dispatch.rename f)).find? (·.id == f id) =
      (h.flights.find? (·.id == id)).map (Dispatch.rename f) := by
    rw [List.find?_map]
    congr 2
    exact funext fun d => beq_rename f d.id id
  unfold pending rename
  rw [hfind]
  cases h.flights.find? (·.id == id) with
  | none => rfl
  | some d => exact h.ledger.shows_rename f d.target id

end Share

/-- The same request about jobs under other identifiers. -/
def Request.rename (req : Request) : Request :=
  match req with
  | .begin job now => .begin (job.rename f) now
  | .operate op => .operate (op.rename f)
  | _ => req

namespace Request

variable {f} {c : Category} {n : UInt64} {reqs : List Request}

theorem category?_rename (req : Request) : (req.rename f).category? = req.category? := by
  cases req with
  | operate op => exact congrArg some (op.category_rename f)
  | _ => rfl

theorem touches_rename (c : Category) (req : Request) :
    (req.rename f).touches c = req.touches c := by
  rw [touches, touches, category?_rename]

theorem isShutdown_rename (req : Request) : (req.rename f).isShutdown = req.isShutdown := by
  cases req <;> rfl

theorem rename_refl_rename (req : Request) :
    (req.rename f).rename (Equiv.refl JobId) = req.rename f := by
  cases req with
  | operate op => exact congrArg operate (op.rename_rename f (Equiv.refl JobId))
  | _ => rfl

/-- Which identifiers are drawn has nothing to do with those that requests name. -/
theorem ids_rename (c : Category) (n : UInt64) (reqs : List Request) :
    ids c n (reqs.map (rename f)) = ids c n reqs := by
  induction reqs generalizing n with
  | nil => rfl
  | cons req reqs ih =>
    rw [List.map_cons, ids, ids, touches_rename, ih]
    cases req <;> rfl

theorem filter_touches_rename (c : Category) (reqs : List Request) :
    (reqs.map (rename f)).filter (·.touches c) = (reqs.filter (·.touches c)).map (rename f) := by
  rw [List.filter_map]
  congr 1
  apply List.filter_congr
  exact fun req _ => touches_rename c req

end Request

/-- What is given, under another identifier and without the number of the span. -/
def Given.rename (new : Given) : Given := ⟨new.job?.map (Job.rename f), 0⟩

namespace Side

/-- The side with its jobs under other identifiers. -/
def rename (v : Side) : Side := ⟨v.share.rename f, v.desk.rename f⟩

/-- A side treats all identifiers alike. -/
theorem step_rename (policy : RetryPolicy) (cancelled : Bool) (new : Given) (v : Side)
    (req : Request) :
    (v.step policy cancelled new req).rename f =
      (v.rename f).step policy cancelled (new.rename f) (req.rename f) := by
  cases req with
  | shutdown => rfl
  | register t =>
    have hregister := v.share.ledger.register_rename f t.category t.name
    exact congrArg (fun l => Side.mk { v.share.rename f with ledger := l } _) hregister.symm
  | draw t clock =>
    rcases new with ⟨- | job, span⟩
    · rfl
    · exact congrArg (Side.mk _) (v.desk.addTick_rename f _)
  | advance c i =>
    simp only [step, rename, Request.rename, Desk.stage?_rename]
    rcases v.desk.stage? i with - | ⟨job, stage⟩
    · rfl
    · simp only [Option.map_some, Share.advance_rename, Desk.setTick_rename]
      rfl
  | watch c i =>
    simp only [step, rename, Request.rename, Desk.watched?_rename]
    rcases v.desk.watched? i with - | job
    · rfl
    · have hpending := v.share.pending_rename f job.id
      simp only [Option.map_some, Job.rename, hpending]
      rfl
  | close c i v' elapsed =>
    simp only [step, rename, Request.rename, Desk.watched?_rename]
    rcases v.desk.watched? i with - | job
    · rfl
    · exact congrArg (Side.mk · _) (v.share.forget_rename f job.id).symm
  | take c =>
    simp only [step, rename, Request.rename, Share.rename, Share.withQueue, Queue.take_rename,
      Desk.deliver_rename]
  | begin job now =>
    simp only [step, rename, Request.rename, Share.rename, Share.withLedger, Ledger.start_rename,
      Desk.addCall_rename]
    rfl
  | answer c i a =>
    simp only [step, rename, Request.rename, Desk.rest?_rename]
    rcases v.desk.rest? i with - | ⟨job, span, rest⟩
    · rfl
    · simp only [Option.map_some, Desk.setCall_rename]
      rfl
  | settle c i now duration =>
    simp only [step, rename, Request.rename, Desk.rest?_rename]
    rcases v.desk.rest? i with - | ⟨job, span, rest⟩
    · rfl
    · cases rest with
      | done result =>
        have hclear := v.share.ledger.clear_rename f job.id now duration
        simp only [Option.map_some, Job.rename, Share.rename, Share.withLedger, hclear,
          Desk.setCall_rename]
        rfl
      | _ => rfl
  | stop c => rfl
  | operate op =>
    have hchange := op.change_rename f v.share.ledger
    exact congrArg (fun l => Side.mk { v.share.rename f with ledger := l } _) hchange.symm
  | sampleDepth c =>
    simp only [step, rename, Request.rename, Share.rename, Share.withLedger, Queue.size_rename,
      Ledger.setDepth_rename]

end Side

end Renaming

/-! ### Runs of a side -/

/-- What a side is given with a request from a supply of identifiers, and what is left. -/
def Request.receive (ids : List JobId) : Request → Given × List JobId
  | .draw t _ =>
    match ids with
    | [] => (⟨none, 0⟩, [])
    | id :: ids => (⟨some (.ofTarget t id none .shutdown), 0⟩, ids)
  | _ => (⟨none, 0⟩, ids)

/-- What requests about the category do, one after another, with the identifiers
that they draw. -/
def Side.run (policy : RetryPolicy) : Bool → List JobId → Side → List Request → Side
  | _, _, v, [] => v
  | cancelled, ids, v, req :: reqs =>
    let (new, ids) := req.receive ids
    run policy (cancelled || req.isShutdown) ids (v.step policy cancelled new req) reqs

namespace Session

variable (policy : RetryPolicy) {s : Session} {c : Category} {req : Request} {reqs : List Request}
  (f : Equiv.Perm JobId)

theorem receive_ids (s : Session) (ht : req.touches c = true) (reqs : List Request) :
    (req.rename f).receive ((Request.ids c s.collector.drawn (req :: reqs)).map f) =
      ((s.given req).rename f,
        (Request.ids c (s.collector.drawn + .ofNat req.draws) reqs).map f) := by
  rw [Request.ids, if_pos ht]
  cases req with
  | draw t clock => rfl
  | _ => simp [Request.rename, Request.receive, Request.id?, given, Given.rename]

/-- In a session the side of each category goes through its own run. -/
theorem side_run (h : s.Sorted) (reqs : List Request) :
    ((s.run policy reqs).side c).rename f =
      ((s.side c).rename f).run policy s.collector.shutdown
        ((Request.ids c s.collector.drawn reqs).map f)
        ((reqs.filter (·.touches c)).map (Request.rename f)) := by
  induction reqs generalizing s with
  | nil => rfl
  | cons req reqs ih =>
    obtain ⟨hdrawn, hshutdown⟩ := count_step policy s req
    rw [run_cons, ih (h.step policy req), hdrawn, hshutdown]
    cases ht : req.touches c with
    | true =>
      rw [List.filter_cons_of_pos ht, List.map_cons, Side.run, receive_ids f s ht,
        side_step policy h ht, Side.step_rename, Request.isShutdown_rename]
    | false =>
      have hid : Request.ids c s.collector.drawn (req :: reqs) =
          Request.ids c (s.collector.drawn + .ofNat req.draws) reqs := by
        simp [Request.ids, ht]
      have hgoes : req.isShutdown = false := by
        cases req with
        | shutdown => cases ht
        | _ => rfl
      rw [List.filter_cons_of_neg (by simp [ht]), hid, side_step_away policy h ht, hgoes,
        Bool.or_false]

theorem side_start {queue : Queue} (hq : queue.jobs = []) (c : Category) :
    ((start queue).side c).rename f = ⟨⟨.empty, queue, []⟩, .empty⟩ := by
  have hqueue : queue.rename f = queue := by
    rw [Queue.rename, hq, List.map_nil, ← hq]
  have hside : (start queue).side c = ⟨⟨.empty, queue, []⟩, .empty⟩ := by
    rw [side, Collector.share, desk_start]
    simp [start, Collector.start]
  rw [hside, Side.rename, Share.rename, hqueue]
  rfl

/-- Requests of which a category gets to see the same lead its side to the same, with
the identifiers that the ones draw in place of those that the others draw. -/
theorem side_of_same {queue : Queue} (hq : queue.jobs = []) {reqs others : List Request}
    (hreqs : others.filter (·.touches c) = (reqs.filter (·.touches c)).map (Request.rename f))
    (hids : (Request.ids c 0 reqs).map f = Request.ids c 0 others) :
    (((start queue).run policy others).side c).rename (Equiv.refl JobId) =
      (((start queue).run policy reqs).side c).rename f := by
  have hplain : (Request.ids c 0 others).map (Equiv.refl JobId) = (Request.ids c 0 reqs).map f :=
    (List.map_id _).trans hids.symm
  have hothers : (others.filter (·.touches c)).map (Request.rename (Equiv.refl JobId)) =
      (reqs.filter (·.touches c)).map (Request.rename f) := by
    rw [hreqs, List.map_map]
    exact List.map_congr_left fun req _ => Request.rename_refl_rename req
  rw [side_run policy _ (sorted_start queue), side_run policy f (sorted_start queue), hothers,
    side_start _ hq, side_start f hq]
  exact congrArg (fun ids => Side.run policy false ids _ _) hplain

/-! ### Two runs -/

/-- The requests of one category alone lead its side to what it comes to among those
of both. -/
theorem exists_rename_of_filter {queue : Queue} (hq : queue.jobs = []) (c : Category)
    (reqs : List Request) (few : Request.drawsOf reqs ≤ 2 ^ 64) :
    ∃ f : Equiv.Perm JobId,
      (∀ id, id ∉ Request.ids c 0 reqs → id ∉ Request.ids c 0 (reqs.filter (·.touches c)) →
        f id = id) ∧
      (((start queue).run policy
          ((reqs.filter (·.touches c)).map (Request.rename f))).side c).rename (Equiv.refl JobId) =
        (((start queue).run policy reqs).side c).rename f := by
  have hfilter : (reqs.filter (·.touches c)).filter (·.touches c) = reqs.filter (·.touches c) := by
    rw [List.filter_filter]
    simp
  have hlength : (Request.ids c 0 reqs).length =
      (Request.ids c 0 (reqs.filter (·.touches c))).length := by
    rw [Request.length_ids, Request.length_ids, hfilter]
  obtain ⟨f, hf, hkeep⟩ := exists_perm_map_eq (Request.ids_nodup c 0 few)
    (Request.ids_nodup c 0 ((Request.drawsOf_filter_le _ reqs).trans few)) hlength
  refine ⟨f, hkeep, side_of_same policy f hq ?_ ?_⟩
  · rw [Request.filter_touches_rename, hfilter]
  · rw [Request.ids_rename, hf]

/-- Requests of which both categories get to see the same lead both sides to the same. -/
theorem exists_rename_of_same {queue : Queue} (hq : queue.jobs = []) {reqs others : List Request}
    (hsame : ∀ c, others.filter (·.touches c) = reqs.filter (·.touches c))
    (few : Request.drawsOf reqs ≤ 2 ^ 64) (few' : Request.drawsOf others ≤ 2 ^ 64) :
    ∃ f : Equiv.Perm JobId,
      (∀ id, (∀ c, id ∉ Request.ids c 0 reqs ∧ id ∉ Request.ids c 0 others) → f id = id) ∧
      ∀ c, (((start queue).run policy (others.map (Request.rename f))).side c).rename
          (Equiv.refl JobId) =
        (((start queue).run policy reqs).side c).rename f := by
  have hlength : ∀ c, (Request.ids c 0 reqs).length = (Request.ids c 0 others).length := by
    intro c
    rw [Request.length_ids, Request.length_ids, hsame]
  obtain ⟨f, hf, hkeep⟩ := exists_perm_map_eq (Request.all_ids_nodup 0 few)
    (Request.all_ids_nodup 0 few') (by simp only [List.length_append, hlength])
  rw [List.map_append] at hf
  obtain ⟨hfilesystem, hdirectory⟩ := List.append_inj hf (by rw [List.length_map, hlength])
  have hids : ∀ c, (Request.ids c 0 reqs).map f = Request.ids c 0 others := by
    intro c
    cases c with
    | filesystem => exact hfilesystem
    | directory => exact hdirectory
  refine ⟨f, fun id hid => hkeep id ?_ ?_, fun c => side_of_same policy f hq ?_ ?_⟩
  · simp [(hid .filesystem).1, (hid .directory).1]
  · simp [(hid .filesystem).2, (hid .directory).2]
  · rw [Request.filter_touches_rename, hsame]
  · rw [Request.ids_rename, hids]

/-- The two categories do not interfere, whatever the requests of a session:

* without the requests of the other category, those of a category lead its side
  (the ledger with its items, its pointer and the depth on record, the queue, the
  hand-overs on record, and on its desk the outcomes of its ticks, the deliveries,
  the reports of its jobs and the looks of its watchdogs) to what it comes to with
  them;
* two requests in a row about different categories can be made in either order.

In each case this is up to other identifiers for the jobs.  No identifiers are
exchanged but those that ticks draw, and these differ as long as the session draws
no more of them than there are running numbers. -/
theorem noninterference {n : Nat} {queue : Queue} (hq : Queue.build? n = some queue)
    (reqs : List Request) (few : Request.drawsOf reqs ≤ 2 ^ 64) :
    (∀ c, ∃ f : Equiv.Perm JobId,
      (∀ id, id ∉ Request.ids c 0 reqs → id ∉ Request.ids c 0 (reqs.filter (·.touches c)) →
        f id = id) ∧
      (((start queue).run policy
          ((reqs.filter (·.touches c)).map (Request.rename f))).side c).rename (Equiv.refl JobId) =
        (((start queue).run policy reqs).side c).rename f) ∧
    ∀ before after a b d e, reqs = before ++ a :: b :: after →
      a.category? = some d → b.category? = some e → d ≠ e →
      ∃ f : Equiv.Perm JobId,
        (∀ id, (∀ c, id ∉ Request.ids c 0 reqs ∧
          id ∉ Request.ids c 0 (before ++ b :: a :: after)) → f id = id) ∧
        ∀ c, (((start queue).run policy
            ((before ++ b :: a :: after).map (Request.rename f))).side c).rename
              (Equiv.refl JobId) =
          (((start queue).run policy reqs).side c).rename f := by
  have hjobs : queue.jobs = [] := congrArg Queue.jobs (Queue.build?_eq_some hq)
  refine ⟨fun c => exists_rename_of_filter policy hjobs c reqs few, ?_⟩
  rintro before after a b d e rfl ha hb hde
  apply exists_rename_of_same policy hjobs _ few
  · have hsum : Request.drawsOf (before ++ b :: a :: after) =
        Request.drawsOf (before ++ a :: b :: after) := by
      simp only [Request.drawsOf, List.countP_append, List.countP_cons]
      omega
    rwa [hsum]
  · intro c
    -- neither category gets to see both requests
    have hone : a.touches c = false ∨ b.touches c = false := by
      by_contra hboth
      simp only [not_or, Bool.not_eq_false, Request.touches, ha, hb, Option.all_some,
        beq_iff_eq] at hboth
      exact hde (hboth.1.trans hboth.2.symm)
    rcases hone with h | h <;> simp [List.filter_cons, h]

/-- A file system and a directory of one name.  Both are ticked, the directory first,
and the steps of the ticks take turns. -/
def namesakes : List Request :=
  let disk := Engine.sampleTarget
  let tree : Target := ⟨disk.name, .directory ⟨⟨"/"⟩, 1⟩, disk.interval, disk.timeout⟩
  [.register disk, .register tree, .draw tree 5, .draw disk 5,
    .advance .directory 0, .advance .filesystem 0, .advance .directory 0, .advance .filesystem 0,
    .advance .directory 0, .advance .filesystem 0]

/-- The tick of the file system draws the second identifier of the session, and the
first one where the directory is left out. -/
theorem noninterference_of_namesakes : ∃ queue, Queue.build? 100 = some queue ∧
    Request.drawsOf namesakes ≤ 2 ^ 64 ∧ ∃ f : Equiv.Perm JobId,
      f (.make .filesystem "root" 5 1) = .make .filesystem "root" 5 0 ∧
      (((start queue).run .standard ((namesakes.filter (·.touches .filesystem)).map
          (Request.rename f))).side .filesystem).rename (Equiv.refl JobId) =
        (((start queue).run .standard namesakes).side .filesystem).rename f := by
  have few : Request.drawsOf namesakes ≤ 2 ^ 64 := by decide
  obtain ⟨f, -, hf⟩ := (noninterference .standard (n := 100) rfl namesakes few).1 .filesystem
  refine ⟨_, rfl, few, f, ?_, hf⟩
  have hids := congrArg (fun v : Side => v.desk.ticks.map (·.job.id)) hf
  exact (List.cons.inj hids).1.symm

end Session

end DiskWatch
