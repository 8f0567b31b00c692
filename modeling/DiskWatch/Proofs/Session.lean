/-
DiskWatch/Proofs/Session.lean

Any use of the collector, one request after another.  A request is one step of a
tick, of a watchdog, of a worker or of a process call, a registration, or a bare
call of an operation of the bookkeeping.  Who makes requests, and in which order,
is left open; a process call may be about a job that no tick has drawn.  What the
outside world brings in (readings of the clock, answers to a measurement) comes
with the request.

Every category has a desk, where its ticks, deliveries, process calls and looks of
its watchdogs are kept with all that came of them.  A later request names a tick
or a process call by its number on the desk.

A whole tick is a draw and three steps (`run_tick`).  What lies on the desk of a
category is about jobs of that category (`sorted_run`), and the identifiers that
the ticks of a session draw all differ (`Request.all_ids_nodup`).
-/
import DiskWatch.Proofs.Bookkeeping
import DiskWatch.Proofs.Identity

namespace DiskWatch

/-! ### The steps of a tick, by stage -/

/-- Where a tick stands: between two of its steps, or at its end. -/
inductive Standing
  | under (stage : TickStage)
  | ended (outcome : Collector.TickOutcome)
  deriving DecidableEq

/-- The next step of a tick. -/
def Collector.advance (k : Collector) (job : Job) : TickStage → Standing × Collector
  | .drawn => ((k.reserve job).map (.under <| .decided ·) id)
  | .decided .unregistered => (.ended .unregistered, k.refuse job)
  | .decided .alreadyRunning => (.ended .skipped, k.skip job)
  | .decided .admitted => ((k.enqueue job).map (.under <| .offered ·) id)
  | .offered (some e) => (.ended .enqueueFailed, k.withdraw job e)
  | .offered none => (.ended (.enqueued job), k.dispatch job)

/-! ### The answers to a measurement -/

/-- What the outside world says to one exchange of a measurement. -/
inductive Answer
  | status (s : PathStatus)
  | output (r : Except Error String)
  /-- The pause is over; it was cut short if a cancellation is there to do so. -/
  | pause (cut : Bool)
  | noted

/-- What is left of an activity after an answer to its next exchange.  An answer
to another question leaves the activity where it is. -/
def Activity.after {α : Type} (cancelled : Bool) : Answer → Activity α → Activity α
  | .status s, .look _ next => next s
  | .output r, .call _ next => next r
  | .pause cut, .pause _ next => next (cut && cancelled)
  | .noted, .note _ next => next
  | _, rest => rest

/-- The note that comes next in an activity is kept. -/
def Collector.hear {α : Type} (k : Collector) (span : Nat) : Activity α → Collector
  | .note n _ => k.observe fun o => Activity.keep (some span) o n
  | _ => k

/-! ### Desks -/

/-- A tick with all that came of it. -/
structure TickRecord where
  job : Job
  standing : Standing

/-- How a process call goes on, or what it reported. -/
inductive Handling
  | under (rest : Activity (Except Error Measurement))
  | reported (result : Except Error Measurement) (duration : Duration)

/-- A process call with all that came of it. -/
structure CallRecord where
  job : Job
  span : Nat
  handling : Handling

/-- What was done for a category. -/
structure Desk where
  ticks : List TickRecord
  deliveries : List Delivery
  calls : List CallRecord
  /-- What watchdogs saw when they looked whether their jobs were under way. -/
  looks : List Bool

/-- The stage of a tick that has not ended. -/
def TickRecord.stage? (t : TickRecord) : Option (Job × TickStage) :=
  match t.standing with
  | .under stage => some (t.job, stage)
  | .ended _ => none

/-- The job that a watchdog was set on. -/
def TickRecord.watched? (t : TickRecord) : Option Job :=
  match t.standing with
  | .ended (.enqueued _) => some t.job
  | _ => none

/-- What a process call has yet to do. -/
def CallRecord.rest? (k : CallRecord) :
    Option (Job × Nat × Activity (Except Error Measurement)) :=
  match k.handling with
  | .under rest => some (k.job, k.span, rest)
  | .reported .. => none

namespace Desk

/-- Nothing was done yet. -/
def empty : Desk := ⟨[], [], [], []⟩

def stage? (d : Desk) (i : Nat) : Option (Job × TickStage) := d.ticks[i]?.bind TickRecord.stage?

def watched? (d : Desk) (i : Nat) : Option Job := d.ticks[i]?.bind TickRecord.watched?

def rest? (d : Desk) (i : Nat) : Option (Job × Nat × Activity (Except Error Measurement)) :=
  d.calls[i]?.bind CallRecord.rest?

def addTick (d : Desk) (t : TickRecord) : Desk := { d with ticks := d.ticks ++ [t] }

def setTick (d : Desk) (i : Nat) (t : TickRecord) : Desk := { d with ticks := d.ticks.set i t }

def deliver (d : Desk) (delivery : Delivery) : Desk :=
  { d with deliveries := d.deliveries ++ [delivery] }

def addCall (d : Desk) (k : CallRecord) : Desk := { d with calls := d.calls ++ [k] }

def setCall (d : Desk) (i : Nat) (k : CallRecord) : Desk := { d with calls := d.calls.set i k }

def addLook (d : Desk) (pending : Bool) : Desk := { d with looks := d.looks ++ [pending] }

end Desk

/-! ### Requests -/

/-- One request.  A number is that of a tick or a process call on the desk of the
category. -/
inductive Request
  | register (t : Target)
  | draw (t : Target) (clock : Int)
  | advance (c : Category) (i : Nat)
  | watch (c : Category) (i : Nat)
  | close (c : Category) (i : Nat) (v : Collector.Verdict) (elapsed : Duration)
  | take (c : Category)
  | begin (job : Job) (now : Instant)
  | answer (c : Category) (i : Nat) (a : Answer)
  | settle (c : Category) (i : Nat) (now : Instant) (duration : Duration)
  | stop (c : Category)
  | operate (op : Operation)
  | sampleDepth (c : Category)
  | shutdown

namespace Request

/-- The category that a request is about; shutdown is about both. -/
def category? : Request → Option Category
  | register t => some t.category
  | draw t _ => some t.category
  | advance c _ => some c
  | watch c _ => some c
  | close c _ _ _ => some c
  | take c => some c
  | begin job _ => some job.category
  | answer c _ _ => some c
  | settle c _ _ _ => some c
  | stop c => some c
  | operate op => some op.category
  | sampleDepth c => some c
  | shutdown => none

/-- Whether a request is about a category. -/
def touches (c : Category) (req : Request) : Bool := req.category?.all (· == c)

/-- Whether a request is the one for shutdown. -/
def isShutdown : Request → Bool
  | shutdown => true
  | _ => false

/-- The identifier that a request draws, as the one with this running number. -/
def id? (n : UInt64) : Request → Option JobId
  | draw t clock => some (.make t.category t.name clock n)
  | _ => none

/-- Whether a request draws an identifier. -/
def isDraw : Request → Bool
  | draw .. => true
  | _ => false

/-- How many identifiers a request draws. -/
def draws (req : Request) : Nat := if req.isDraw then 1 else 0

end Request

/-! ### Sessions -/

/-- The collector, and what was done with it for each category. -/
structure Session where
  collector : Collector
  desks : PerCategory Desk

namespace Session

/-- The session before any request. -/
def start (queue : Queue) : Session := ⟨.start (.both queue), .both .empty⟩

/-- The desk of a category. -/
def desk (s : Session) (c : Category) : Desk := s.desks.get c

/-- Changes the desk of a category, and the collector. -/
def put (s : Session) (c : Category) (k : Collector) (f : Desk → Desk) : Session :=
  ⟨k, s.desks.update c f⟩

/-- What a request does. -/
def step (policy : RetryPolicy) (s : Session) : Request → Session
  | .register t => { s with collector := s.collector.register t }
  | .draw t clock =>
    let (job, k) := s.collector.draw t clock
    s.put t.category k (·.addTick ⟨job, .under .drawn⟩)
  | .advance c i =>
    match (s.desk c).stage? i with
    | none => s
    | some (job, stage) =>
      let (standing, k) := s.collector.advance job stage
      s.put c k (·.setTick i ⟨job, standing⟩)
  | .watch c i =>
    match (s.desk c).watched? i with
    | none => s
    | some job => s.put c s.collector (·.addLook (s.collector.pending job.id))
  | .close c i v elapsed =>
    match (s.desk c).watched? i with
    | none => s
    | some job => { s with collector := s.collector.closeWatch job.id job.cycle v elapsed }
  | .take c =>
    let (delivery, k) := s.collector.takeJob c
    s.put c k (·.deliver delivery)
  | .begin job now =>
    let (span, k) := s.collector.begin job now
    s.put job.category k
      (·.addCall ⟨job, span, .under (Measurement.take policy job.kind job.timeout)⟩)
  | .answer c i a =>
    match (s.desk c).rest? i with
    | none => s
    | some (job, span, rest) =>
      let cancelled := job.stop.given s.collector.shutdown
      s.put c (s.collector.hear span rest)
        (·.setCall i ⟨job, span, .under (rest.after cancelled a)⟩)
  | .settle c i now duration =>
    match (s.desk c).rest? i with
    | some (job, span, .done result) =>
      s.put c (s.collector.settle job span now result duration)
        (·.setCall i ⟨job, span, .reported result duration⟩)
    | _ => s
  | .stop c => { s with collector := s.collector.stopWorker c }
  | .operate op =>
    { s with collector := { s.collector with ledgers := op.apply s.collector.ledgers } }
  | .sampleDepth c => { s with collector := s.collector.sampleDepth c }
  | .shutdown => { s with collector := s.collector.requestShutdown }

/-- What requests do, one after another. -/
def run (policy : RetryPolicy) (s : Session) (reqs : List Request) : Session :=
  reqs.foldl (step policy) s

end Session

/-! ### Whole ticks -/

/-- A tick is a draw and what its three steps come to. -/
theorem Collector.tick_eq_advance (k : Collector) (t : Target) (clock : Int) :
    ∃ job k₁ stage k₂, k.draw t clock = (job, k₁) ∧ k₁.advance job .drawn = (.under stage, k₂) ∧
      (k₂.advance job stage = (.ended (k.tick t clock).1, (k.tick t clock).2) ∨
        ∃ last k₃, k₂.advance job stage = (.under last, k₃) ∧
          k₃.advance job last = (.ended (k.tick t clock).1, (k.tick t clock).2)) := by
  rcases hd : k.draw t clock with ⟨job, k₁⟩
  rcases hr : k₁.reserve job with ⟨a, k₂⟩
  refine ⟨job, k₁, .decided a, k₂, rfl, by simp [advance, hr], ?_⟩
  cases a with
  | unregistered => exact .inl (by simp [advance, tick, hd, hr])
  | alreadyRunning => exact .inl (by simp [advance, tick, hd, hr])
  | admitted =>
    rcases he : k₂.enqueue job with ⟨e, k₃⟩
    refine .inr ⟨.offered e, k₃, by simp [advance, he], ?_⟩
    cases e with
    | some e => simp [advance, tick, hd, hr, he]
    | none => simp [advance, tick, hd, hr, he]

namespace Desk

theorem stage?_addTick (d : Desk) (t : TickRecord) :
    (d.addTick t).stage? d.ticks.length = t.stage? := by
  simp [stage?, addTick]

theorem setTick_addTick (d : Desk) (t t' : TickRecord) :
    (d.addTick t).setTick d.ticks.length t' = d.addTick t' := by
  simp [setTick, addTick]

end Desk

namespace Session

variable (policy : RetryPolicy) {s : Session} {c : Category}

@[simp] theorem desk_put (s : Session) (c : Category) (k : Collector) (f : Desk → Desk) :
    (s.put c k f).desk c = f (s.desk c) := PerCategory.get_update ..

theorem put_put (s : Session) (c : Category) (k k' : Collector) (f g : Desk → Desk) :
    (s.put c k f).put c k' g = s.put c k' fun d => g (f d) := by
  cases c <;> rfl

theorem put_congr {f g : Desk → Desk} (k : Collector) (h : f (s.desk c) = g (s.desk c)) :
    s.put c k f = s.put c k g := by
  rw [put, put, PerCategory.update_eq_set, PerCategory.update_eq_set]
  exact congrArg (fun d => (⟨k, s.desks.set c d⟩ : Session)) h

/-- The latest tick goes one step further. -/
theorem step_advance_latest (s : Session) (c : Category) (k : Collector) (job : Job)
    (stage : TickStage) :
    (s.put c k (·.addTick ⟨job, .under stage⟩)).step policy
        (.advance c (s.desk c).ticks.length) =
      s.put c (k.advance job stage).2 (·.addTick ⟨job, (k.advance job stage).1⟩) := by
  have hstage : ((s.put c k (·.addTick ⟨job, .under stage⟩)).desk c).stage?
      (s.desk c).ticks.length = some (job, stage) := by
    rw [desk_put, Desk.stage?_addTick]
    rfl
  rw [step, hstage]
  show (s.put c k _).put c _ _ = _
  rw [put_put]
  apply put_congr
  exact Desk.setTick_addTick ..

/-- A tick that has ended goes no further. -/
theorem step_advance_ended (s : Session) (c : Category) (k : Collector) (job : Job)
    (outcome : Collector.TickOutcome) :
    (s.put c k (·.addTick ⟨job, .ended outcome⟩)).step policy
        (.advance c (s.desk c).ticks.length) =
      s.put c k (·.addTick ⟨job, .ended outcome⟩) := by
  have hstage : ((s.put c k (·.addTick ⟨job, .ended outcome⟩)).desk c).stage?
      (s.desk c).ticks.length = none := by
    rw [desk_put, Desk.stage?_addTick]
    rfl
  rw [step, hstage]

theorem run_cons (s : Session) (req : Request) (reqs : List Request) :
    s.run policy (req :: reqs) = (s.step policy req).run policy reqs := rfl

theorem step_draw (s : Session) (t : Target) (clock : Int) :
    s.step policy (.draw t clock) = s.put t.category (s.collector.draw t clock).2
      (·.addTick ⟨(s.collector.draw t clock).1, .under .drawn⟩) := rfl

/-- A whole tick is a draw and the steps that follow it. -/
theorem run_tick (s : Session) (t : Target) (clock : Int) :
    let next := Request.advance t.category (s.desk t.category).ticks.length
    s.run policy [.draw t clock, next, next, next] =
      s.put t.category (s.collector.tick t clock).2
        (·.addTick ⟨(s.collector.draw t clock).1, .ended (s.collector.tick t clock).1⟩) := by
  intro next
  obtain ⟨job, k₁, stage, k₂, hd, hr, hlast⟩ := s.collector.tick_eq_advance t clock
  rw [run_cons, step_draw, hd, run_cons, step_advance_latest, hr, run_cons, step_advance_latest]
  -- a tick that was not admitted has ended by now
  rcases hlast with hlast | ⟨last, k₃, hmore, hlast⟩
  · rw [hlast]
    exact step_advance_ended policy s t.category _ job _
  · rw [hmore, run_cons, step_advance_latest, hlast]
    rfl

end Session

/-! ### Categories of identifiers -/

/-- An identifier that a tick of this category may draw. -/
def JobId.Of (c : Category) (id : JobId) : Prop := ∃ t clock n, id = .make c t clock n

/-- An identifier begins with the name of its category. -/
theorem JobId.Of.unique {c d : Category} {id : JobId} (hc : id.Of c) (hd : id.Of d) : c = d := by
  obtain ⟨t, clock, n, rfl⟩ := hc
  obtain ⟨t', clock', n', h⟩ := hd
  have hhead := congrArg (fun id : JobId => id.text.toList.head?) h
  cases c <;> cases d <;> simp [JobId.make, Category.name] at hhead ⊢

namespace Collector

variable {k : Collector} {job : Job}

/-- The hand-overs on record are of the categories of their identifiers. -/
def FlightsSorted (k : Collector) : Prop := ∀ d ∈ k.inFlight, d.id.Of d.category

theorem count_advance (k : Collector) (job : Job) (stage : TickStage) :
    (k.advance job stage).2.drawn = k.drawn ∧ (k.advance job stage).2.shutdown = k.shutdown := by
  rcases stage with - | (- | - | -) | (- | -) <;> exact ⟨rfl, rfl⟩

/-- A step of a tick puts no other hand-over on record than that of its job. -/
theorem mem_inFlight_advance {stage : TickStage} {d : Dispatch}
    (h : d ∈ (k.advance job stage).2.inFlight) : d ∈ k.inFlight ∨ d = .ofJob job := by
  cases stage with
  | drawn => exact .inl h
  | decided a => cases a <;> exact .inl h
  | offered e =>
    cases e with
    | some e => exact .inl h
    | none =>
      rcases List.mem_append.1 h with h | h
      · exact .inl (List.mem_filter.1 h).1
      · exact .inr (List.mem_singleton.1 h)

theorem inFlight_hear {α : Type} (k : Collector) (span : Nat) (rest : Activity α) :
    (k.hear span rest).inFlight = k.inFlight := by
  cases rest <;> rfl

end Collector

/-! ### What lies on a desk -/

/-- What lies on the desk is about jobs of the category. -/
structure Desk.Of (c : Category) (d : Desk) : Prop where
  ticks : ∀ t ∈ d.ticks, t.job.category = c ∧ t.job.id.Of c
  calls : ∀ k ∈ d.calls, k.job.category = c

namespace Desk.Of

variable {c : Category} {d : Desk} {i : Nat} {t : TickRecord} {k : CallRecord}

theorem empty (c : Category) : Desk.empty.Of c :=
  ⟨fun _ ht => absurd ht List.not_mem_nil, fun _ hk => absurd hk List.not_mem_nil⟩

theorem addTick (h : d.Of c) (hc : t.job.category = c) (hid : t.job.id.Of c) :
    (d.addTick t).Of c := by
  refine ⟨fun u hu => ?_, h.calls⟩
  rcases List.mem_append.1 hu with hu | hu
  · exact h.ticks u hu
  · exact List.mem_singleton.1 hu ▸ ⟨hc, hid⟩

theorem setTick (h : d.Of c) (hc : t.job.category = c) (hid : t.job.id.Of c) :
    (d.setTick i t).Of c := by
  refine ⟨fun u hu => ?_, h.calls⟩
  rcases List.mem_or_eq_of_mem_set hu with hu | rfl
  · exact h.ticks u hu
  · exact ⟨hc, hid⟩

theorem addCall (h : d.Of c) (hc : k.job.category = c) : (d.addCall k).Of c := by
  refine ⟨h.ticks, fun l hl => ?_⟩
  rcases List.mem_append.1 hl with hl | hl
  · exact h.calls l hl
  · exact List.mem_singleton.1 hl ▸ hc

theorem setCall (h : d.Of c) (hc : k.job.category = c) : (d.setCall i k).Of c := by
  refine ⟨h.ticks, fun l hl => ?_⟩
  rcases List.mem_or_eq_of_mem_set hl with hl | rfl
  · exact h.calls l hl
  · exact hc

theorem stage? {job : Job} {stage : TickStage} (h : d.Of c) (hi : d.stage? i = some (job, stage)) :
    job.category = c ∧ job.id.Of c := by
  obtain ⟨t, ht, hstage⟩ := Option.bind_eq_some_iff.1 hi
  have hof := h.ticks t (List.mem_of_getElem? ht)
  unfold TickRecord.stage? at hstage
  split at hstage <;> cases hstage
  exact hof

theorem watched? {job : Job} (h : d.Of c) (hi : d.watched? i = some job) :
    job.category = c ∧ job.id.Of c := by
  obtain ⟨t, ht, hwatched⟩ := Option.bind_eq_some_iff.1 hi
  have hof := h.ticks t (List.mem_of_getElem? ht)
  unfold TickRecord.watched? at hwatched
  split at hwatched <;> cases hwatched
  exact hof

theorem rest? {job : Job} {span : Nat} {rest : Activity (Except Error Measurement)}
    (h : d.Of c) (hi : d.rest? i = some (job, span, rest)) : job.category = c := by
  obtain ⟨k, hk, hrest⟩ := Option.bind_eq_some_iff.1 hi
  have hof := h.calls k (List.mem_of_getElem? hk)
  unfold CallRecord.rest? at hrest
  split at hrest <;> cases hrest
  exact hof

end Desk.Of

namespace Session

variable (policy : RetryPolicy) {s : Session} {c d : Category}

/-- Every desk holds what its category is about, and so do the hand-overs on record. -/
structure Sorted (s : Session) : Prop where
  desks : ∀ c, (s.desk c).Of c
  flights : s.collector.FlightsSorted

@[simp] theorem desk_start (queue : Queue) (c : Category) : (start queue).desk c = .empty :=
  PerCategory.get_both ..

theorem sorted_start (queue : Queue) : (start queue).Sorted :=
  ⟨fun c => desk_start queue c ▸ .empty c, nofun⟩

theorem Sorted.put {k : Collector} {f : Desk → Desk} (h : s.Sorted)
    (hf : (f (s.desk c)).Of c) (hk : k.FlightsSorted) : (s.put c k f).Sorted := by
  refine ⟨fun e => ?_, hk⟩
  by_cases he : e = c
  · subst he
    rwa [desk_put]
  · rw [Session.desk, Session.put, PerCategory.get_update_of_ne _ _ he]
    exact h.desks e

/-- Every request keeps desks and hand-overs sorted. -/
theorem Sorted.step (h : s.Sorted) (req : Request) : (s.step policy req).Sorted := by
  cases req with
  | draw t clock => exact h.put ((h.desks _).addTick rfl ⟨_, _, _, rfl⟩) h.flights
  | advance c i =>
    cases hi : (s.desk c).stage? i with
    | none => simpa only [Session.step, hi] using h
    | some p =>
      obtain ⟨job, stage⟩ := p
      obtain ⟨hc, hid⟩ := (h.desks c).stage? hi
      simp only [Session.step, hi]
      refine h.put ((h.desks c).setTick hc hid) fun d hd => ?_
      rcases Collector.mem_inFlight_advance hd with hd | rfl
      · exact h.flights d hd
      · show job.id.Of job.category
        rwa [hc]
  | watch c i =>
    cases hi : (s.desk c).watched? i with
    | none => simpa only [Session.step, hi] using h
    | some job =>
      simp only [Session.step, hi]
      exact h.put ⟨(h.desks c).ticks, (h.desks c).calls⟩ h.flights
  | close c i v elapsed =>
    cases hi : (s.desk c).watched? i with
    | none => simpa only [Session.step, hi] using h
    | some job =>
      simp only [Session.step, hi]
      refine ⟨h.desks, fun d hd => h.flights d ?_⟩
      have hin : (s.collector.closeWatch job.id job.cycle v elapsed).inFlight =
          s.collector.inFlight.filter (·.id != job.id) := by
        unfold Collector.closeWatch Collector.concludeCycle
        rfl
      exact (List.mem_filter.1 (hin ▸ hd)).1
  | take c => exact h.put ⟨(h.desks c).ticks, (h.desks c).calls⟩ h.flights
  | begin job now => exact h.put ((h.desks _).addCall rfl) h.flights
  | answer c i a =>
    cases hi : (s.desk c).rest? i with
    | none => simpa only [Session.step, hi] using h
    | some p =>
      obtain ⟨job, span, rest⟩ := p
      simp only [Session.step, hi]
      refine h.put ((h.desks c).setCall ((h.desks c).rest? hi)) ?_
      rw [Collector.FlightsSorted, Collector.inFlight_hear]
      exact h.flights
  | settle c i now duration =>
    simp only [Session.step]
    split
    · next job span result hi =>
      exact h.put ((h.desks c).setCall ((h.desks c).rest? hi)) h.flights
    · exact h
  | _ => exact ⟨h.desks, h.flights⟩

theorem Sorted.run (h : s.Sorted) (reqs : List Request) : (s.run policy reqs).Sorted := by
  induction reqs generalizing s with
  | nil => exact h
  | cons req reqs ih => exact ih (h.step policy req)

/-- What lies on the desks of a session is about jobs of their categories. -/
theorem sorted_run (queue : Queue) (reqs : List Request) :
    ((start queue).run policy reqs).Sorted := (sorted_start queue).run policy reqs

/-! ### Running numbers, and shutdown -/

/-- A request for shutdown is noted, a draw is counted, and that is all there is to it. -/
theorem count_step (s : Session) (req : Request) :
    (s.step policy req).collector.drawn = s.collector.drawn + .ofNat req.draws ∧
      (s.step policy req).collector.shutdown = (s.collector.shutdown || req.isShutdown) := by
  have hsame : s.collector.drawn = s.collector.drawn + .ofNat 0 ∧
      s.collector.shutdown = (s.collector.shutdown || false) :=
    ⟨(UInt64.add_zero _).symm, (Bool.or_false _).symm⟩
  cases req with
  | draw t clock => exact ⟨rfl, hsame.2⟩
  | shutdown => exact ⟨hsame.1, (Bool.or_true _).symm⟩
  | advance c i =>
    simp only [step]
    split
    · exact hsame
    · next job stage _ =>
      obtain ⟨hdrawn, hshutdown⟩ := s.collector.count_advance job stage
      exact ⟨hdrawn.trans hsame.1, hshutdown.trans hsame.2⟩
  | watch c i | close c i v elapsed | settle c i now duration =>
    simp only [step]
    split <;> exact hsame
  | answer c i a =>
    simp only [step]
    split
    · exact hsame
    · next job span rest _ => cases rest <;> exact hsame
  | _ => exact hsame

end Session

namespace Request

variable {c : Category} {n : UInt64} {id : JobId} {reqs : List Request}

/-- The identifiers that requests about a category draw, where the next one of the
session gets this running number. -/
def ids (c : Category) (n : UInt64) : List Request → List JobId
  | [] => []
  | req :: reqs =>
    (if req.touches c then (req.id? n).toList else []) ++ ids c (n + .ofNat req.draws) reqs

/-- How many identifiers requests draw. -/
def drawsOf (reqs : List Request) : Nat := reqs.countP isDraw

theorem drawsOf_cons (req : Request) (reqs : List Request) :
    drawsOf (req :: reqs) = drawsOf reqs + req.draws := List.countP_cons

/-- Where a drawn identifier comes from. -/
theorem mem_ids (h : id ∈ ids c n reqs) :
    ∃ m < drawsOf reqs, ∃ t clock, id = .make c t clock (n + .ofNat m) := by
  induction reqs generalizing n with
  | nil => cases h
  | cons req reqs ih =>
    have hsum := drawsOf_cons req reqs
    rcases List.mem_append.1 h with h | h
    · split at h
      · next ht =>
        have hid : req.id? n = some id := Option.mem_toList.1 h
        cases req with
        | draw t clock =>
          cases hid
          have htc : t.category = c := beq_iff_eq.1 ht
          refine ⟨0, hsum ▸ Nat.succ_pos _, t.name, clock, ?_⟩
          rw [htc]
          exact congrArg (JobId.make c t.name clock) (UInt64.add_zero n).symm
        | _ => cases hid
      · cases h
    · obtain ⟨m, hm, t, clock, rfl⟩ := ih h
      refine ⟨req.draws + m, by omega, t, clock, ?_⟩
      rw [UInt64.ofNat_add, UInt64.add_assoc]

theorem length_ids (c : Category) (n : UInt64) (reqs : List Request) :
    (ids c n reqs).length = drawsOf (reqs.filter (·.touches c)) := by
  induction reqs generalizing n with
  | nil => rfl
  | cons req reqs ih =>
    rw [ids, List.length_append, ih, List.filter_cons]
    split
    · rw [drawsOf_cons, Nat.add_comm]
      cases req <;> rfl
    · exact Nat.zero_add _

theorem drawsOf_filter_le (p : Request → Bool) (reqs : List Request) :
    drawsOf (reqs.filter p) ≤ drawsOf reqs :=
  List.filter_sublist.countP_le

theorem of_mem_ids (h : id ∈ ids c n reqs) : id.Of c := by
  obtain ⟨m, -, t, clock, hid⟩ := mem_ids h
  exact ⟨t, clock, _, hid⟩

/-- The draws for a category give different identifiers. -/
theorem ids_nodup (c : Category) (n : UInt64) (few : drawsOf reqs ≤ 2 ^ 64) :
    (ids c n reqs).Nodup := by
  induction reqs generalizing n with
  | nil => exact List.nodup_nil
  | cons req reqs ih =>
    have hsum := drawsOf_cons req reqs
    have htail := ih (n + .ofNat req.draws) (by omega)
    cases req with
    | draw t clock =>
      rw [ids]
      split
      · refine List.nodup_cons.2 ⟨fun hmem => ?_, htail⟩
        -- a later draw has a later running number
        obtain ⟨m, hm, t', clock', hid⟩ := mem_ids hmem
        have hserial := congrArg UInt64.toNat (JobId.serial_eq_of_make_eq hid)
        rw [UInt64.add_assoc, ← UInt64.ofNat_add, UInt64.toNat_add,
          UInt64.toNat_ofNat'] at hserial
        have hone : (draw t clock).draws = 1 := rfl
        have := n.toNat_lt
        omega
      · exact htail
    | _ => simpa [ids, id?] using htail

/-- No identifier is drawn for both categories. -/
theorem all_ids_nodup (n : UInt64) (few : drawsOf reqs ≤ 2 ^ 64) :
    (ids .filesystem n reqs ++ ids .directory n reqs).Nodup := by
  refine List.nodup_append'.2 ⟨ids_nodup _ n few, ids_nodup _ n few, fun id hf hd => ?_⟩
  exact absurd ((of_mem_ids hf).unique (of_mem_ids hd)) (by decide)

end Request

end DiskWatch
