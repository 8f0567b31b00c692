/-
DiskWatch/Proofs/Spans.lean

What a step does to the spans.  Spans are opened one after another and never
removed; the one thing that changes about a span is that an outcome is added to
it.  A step that concludes a cycle adds one outcome to the span of that cycle
and opens none; settling a job adds one to the span of its processing; every
other step at most opens spans (`Step.spans`).

So the kind of a span never changes (`Step.kinds`), which tells the span of a
cycle from the span of a processing for good.
-/
import DiskWatch.Proofs.Interleaving

namespace DiskWatch

/-! ### What is published opens no span -/

theorem Collector.spans_publishSchedule (t : Target) (o : Telemetry) :
    (publishSchedule t o).spans = o.spans := by
  unfold publishSchedule
  split <;> simp

theorem Collector.spans_publishTimeout (record : Option Dispatch) (id : JobId)
    (elapsed : Duration) (o : Telemetry) :
    (publishTimeout record id elapsed o).spans = o.spans := by
  cases record <;> simp [publishTimeout]

/-- What neither points of gauges nor events change is as it was after a measurement was
published. -/
theorem Collector.publish_frame {β : Type} (f : Telemetry → β)
    (hrecord : ∀ t g reading, f (t.record g reading) = f t) (hlog : ∀ t e, f (t.log e) = f t)
    (job : Job) (o : Telemetry) (m : Measurement) : f (publish job o m) = f o := by
  unfold publish
  split
  · rw [hrecord, hrecord, hrecord]
  · next samples _ =>
    -- one point for each sample
    induction samples generalizing o with
    | nil => rfl
    | cons sample samples ih => rw [List.foldl_cons, ih, hrecord]
  · exact hlog o _

theorem Collector.spans_publish (job : Job) (o : Telemetry) (m : Measurement) :
    (publish job o m).spans = o.spans :=
  publish_frame Telemetry.spans Telemetry.spans_record Telemetry.spans_log job o m

theorem Collector.spans_report (job : Job) (now : Instant) (result : Except Error Measurement)
    (duration : Duration) (o : Telemetry) : (report job now result duration o).spans = o.spans := by
  cases result <;> simp only [report] <;> split <;> simp [spans_publish]

/-! ### The operations of a worker -/

theorem Collector.spans_takeJob {k k' : Collector} {c : Category} {d : Delivery}
    (h : k.takeJob c = (d, k')) : k'.telemetry.spans = k.telemetry.spans := by
  obtain ⟨rfl, rfl⟩ := Prod.mk.inj h
  simp only [observe]
  split <;> rfl

theorem Collector.spans_setRunning (k : Collector) (job : Job) (now : Instant) :
    (k.setRunning job now).telemetry.spans = k.telemetry.spans := by
  show (ite _ _ _ : Telemetry).spans = _
  split <;> rfl

theorem Collector.spans_begin {k k' : Collector} {job : Job} {now : Instant} {span : Nat}
    (h : k.begin job now = (span, k')) :
    span = k.telemetry.spans.length ∧ k'.telemetry.spans = k.telemetry.spans ++
      [⟨job.cycle, .process job.category job.target job.id job.path, []⟩] := by
  obtain rfl : (k.begin job now).1 = span := by rw [h]
  obtain rfl : (k.begin job now).2 = k' := by rw [h]
  exact ⟨rfl, Collector.spans_setRunning _ job now⟩

theorem Collector.spans_settle (k : Collector) (job : Job) (span : Nat) (now : Instant)
    (result : Except Error Measurement) (duration : Duration) :
    (k.settle job span now result duration).telemetry.spans =
      k.telemetry.spans.modify span (.conclude (outcomeOf result) duration) := by
  simp only [settle, observe, spans_report]
  rfl

namespace Engine

variable {r : Routine} {s s' : Engine} {e : Act}

/-- The spans recorded so far. -/
def spans (s : Engine) : List Span := s.collector.telemetry.spans

/-! ### The three ways of a step -/

/-- The job whose cycle an act concludes, and the outcome of the cycle. -/
def Act.conclusion? : Act → Option (Job × Outcome)
  | skip job => some (job, .skipped)
  | refuse job => some (job, .unregistered)
  | withdraw job _ => some (job, .enqueueFailed)
  | close job v _ => some (job, v.outcome)
  | _ => none

/-- One more outcome on the span of a cycle. -/
def concludeSpan (spans : List Span) (cycle : Option Nat) (outcome : Outcome)
    (duration : Duration) : List Span :=
  match cycle with
  | some i => spans.modify i (.conclude outcome duration)
  | none => spans

/-- What may become of the spans in one step. -/
inductive SpanChange (s : Engine) (e : Act) : List Span → Prop
  | opened (new : List Span) (he : e.conclusion? = none) : SpanChange s e (s.spans ++ new)
  | settled {c : Category} {job : Job} {span : Nat} {rest : Activity (Except Error Measurement)}
      (hw : s.workers.get c = .measuring job span rest) (he : e.conclusion? = none)
      (outcome : Outcome) (duration : Duration) :
      SpanChange s e (s.spans.modify span (.conclude outcome duration))
  | concluded {job : Job} {outcome : Outcome} (he : e.conclusion? = some (job, outcome))
      (duration : Duration) : SpanChange s e (concludeSpan s.spans job.cycle outcome duration)

theorem spans_concludeCycle (k : Collector) (cycle : Option Nat) (outcome : Outcome)
    (duration : Duration) :
    (k.concludeCycle cycle outcome duration).telemetry.spans =
      concludeSpan k.telemetry.spans cycle outcome duration := by
  cases cycle <;> rfl

namespace SpanChange

/-- Spans that stay as they are: nobody opened any. -/
theorem same {new : List Span} (he : e.conclusion? = none) (h : new = s.spans) :
    SpanChange s e new := by
  rw [h, ← List.append_nil s.spans]
  exact .opened [] he

/-- The cycle of a job is concluded after something that left the spans alone. -/
theorem ofConcludeCycle {job : Job} {outcome : Outcome} (he : e.conclusion? = some (job, outcome))
    {k : Collector} (hk : k.telemetry.spans = s.spans) (duration : Duration) :
    SpanChange s e (k.concludeCycle job.cycle outcome duration).telemetry.spans := by
  rw [spans_concludeCycle, hk]
  exact .concluded he duration

end SpanChange

/-- What a step does to the spans. -/
theorem Step.spans (h : Step r s e s') : SpanChange s e s'.spans := by
  cases h with
  | register t => exact .same rfl (Collector.spans_publishSchedule t _)
  -- each of these opens one span of its own
  | draw hk | reserve _ hk | enqueue _ hk => cases hk; exact .opened [_] rfl
  | skip _ | refuse _ | withdraw _ =>
    refine SpanChange.ofConcludeCycle ?_ ?_ _
    · rfl
    · rfl
  | begin _ hk =>
    show SpanChange s _ (Collector.telemetry _).spans
    rw [(Collector.spans_begin hk).2]
    exact .opened [_] rfl
  | @note _ _ _ n _ _ =>
    cases n with
    | event e => exact .same rfl rfl
    | parsed => exact .opened [_] rfl
  | settle hw =>
    show SpanChange s _ (Collector.telemetry _).spans
    rw [Collector.spans_settle]
    exact .settled hw rfl _ _
  | close hs hg =>
    refine SpanChange.ofConcludeCycle ?_ ?_ _
    · rfl
    · -- a timeout is published before the cycle is concluded
      show (ite _ _ _ : Telemetry).spans = _
      split
      · exact Collector.spans_publishTimeout _ _ _ _
      · rfl
  | idle _ hk | take _ hk | finish _ hk _ =>
    have hsame := Collector.spans_takeJob hk
    exact .same rfl hsame
  | _ => exact .same rfl rfl

/-! ### Spans keep their kind -/

theorem map_kind_modify (spans : List Span) (i : Nat) (outcome : Outcome) (duration : Duration) :
    (spans.modify i (.conclude outcome duration)).map Span.kind = spans.map Span.kind := by
  apply List.ext_getElem?
  intro j
  rw [List.getElem?_map, List.getElem?_map, List.getElem?_modify]
  cases spans[j]? with
  | none => rfl
  | some span => by_cases hij : i = j <;> simp [hij, Span.conclude]

/-- A step opens spans behind those that are there and changes the kind of none. -/
theorem Step.kinds (h : Step r s e s') : s.spans.map Span.kind <+: s'.spans.map Span.kind := by
  have hc := h.spans
  generalize s'.spans = spans at hc ⊢
  cases hc with
  | opened new _ => rw [List.map_append]; exact List.prefix_append _ _
  -- a conclusion adds an outcome to a span and leaves its kind
  | settled _ _ outcome duration =>
    exact (map_kind_modify _ _ outcome duration).symm ▸ List.prefix_rfl
  | @concluded job outcome _ duration =>
    cases hc : job.cycle with
    | none => exact List.prefix_rfl
    | some i => exact (map_kind_modify _ i outcome duration).symm ▸ List.prefix_rfl

end Engine

end DiskWatch
