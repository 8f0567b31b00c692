/-
DiskWatch/Proofs/Conservation.lean

Nothing is lost and nothing is counted twice.  Every tick ends in one of four
ways, and every job that was handed to a watchdog is either still in flight or
was closed by it in one of three ways.  The running totals count these ways
(`stats_eq`), the records in flight are those of the hand-overs that no watchdog
has closed (`inFlight_eq`), and the span of a cycle has the outcomes with which
the cycle was concluded (`cycle_outcomes`), which are never two.

The totals are 64-bit words; what is said of them holds in a run of any length,
modulo 2^64.  The records in flight are found by identifier, so they are what
they should be as long as identifiers tell the jobs apart.
-/
import DiskWatch.Proofs.Exclusion

namespace DiskWatch.Engine

variable {ok : Engine → Act → Prop} {r : Routine} {n : Nat} {past : List Act} {s s' : Engine}
  {e : Act} {job other : Job}

/-! ### How ticks and watchdogs end -/

/-- The job whose tick an act skips. -/
def Act.skipped? : Act → Option Job
  | skip job => some job
  | _ => none

/-- The job whose tick an act refuses. -/
def Act.refused? : Act → Option Job
  | refuse job => some job
  | _ => none

/-- The job whose watchdog an act closes. -/
def Act.closed? : Act → Option Job
  | close job _ _ => some job
  | _ => none

/-- The job whose watchdog an act closes with this verdict. -/
def Act.closedAs? (v : Collector.Verdict) : Act → Option Job
  | close job w _ => if w = v then some job else none
  | _ => none

/-- The job whose watchdog cannot begin or go on. -/
def Act.fainted? : Act → Option Job
  | faint job => some job
  | falter job => some job
  | _ => none

/-- The job whose cycle an act concludes. -/
def Act.concluded? (e : Act) : Option Job := e.conclusion?.map Prod.fst

/-- Ticks end in four ways. -/
theorem ended_eq (past : List Act) : (jobs Act.ended? past : Multiset Job) =
    jobs Act.dispatched? past +
      (jobs Act.skipped? past + (jobs Act.withdrawn? past + jobs Act.refused? past)) := by
  induction past with
  | nil => rfl
  | cons e past ih =>
    simp only [jobs_cons, ← Multiset.coe_add, ih]
    cases e <;> simp only [Act.ended?, Act.dispatched?, Act.skipped?, Act.withdrawn?,
      Act.refused?, Option.toList_none, Option.toList_some, Multiset.coe_nil] <;> abel

/-- Cycles are concluded by watchdogs, and by ticks that end without one. -/
theorem concluded_eq (past : List Act) : (jobs Act.concluded? past : Multiset Job) =
    jobs Act.closed? past +
      (jobs Act.skipped? past + (jobs Act.withdrawn? past + jobs Act.refused? past)) := by
  induction past with
  | nil => rfl
  | cons e past ih =>
    simp only [jobs_cons, ← Multiset.coe_add, ih]
    cases e <;> simp only [Act.concluded?, Act.conclusion?, Act.closed?, Act.skipped?,
      Act.withdrawn?, Act.refused?, Option.map_none, Option.map_some, Option.toList_none,
      Option.toList_some, Multiset.coe_nil] <;> abel

/-- Watchdogs close with three verdicts. -/
theorem closed_eq (past : List Act) : (jobs Act.closed? past : Multiset Job) =
    jobs (Act.closedAs? .completed) past +
      (jobs (Act.closedAs? .timedOut) past + jobs (Act.closedAs? .shutdown) past) := by
  induction past with
  | nil => rfl
  | cons e past ih =>
    simp only [jobs_cons, ← Multiset.coe_add, ih]
    cases e with
    | close job v now =>
      cases v <;> simp only [Act.closed?, Act.closedAs?, reduceCtorEq, if_true, if_false,
        Option.toList_none, Option.toList_some, Multiset.coe_nil] <;> abel
    | _ => simp only [Act.closed?, Act.closedAs?, Option.toList_none, Multiset.coe_nil, add_zero]

/-- Jobs that were handed to a watchdog have one, unless it could not begin or go
on, or has closed. -/
theorem dispatched_eq (h : RunUnder ok r n past s) : (jobs Act.dispatched? past : Multiset Job) =
    s.sentries.map Sentry.job + (jobs Act.fainted? past + jobs Act.closed? past) := by
  induction h with
  | start => rfl
  | @step past s s' e _ hs _ ih =>
    simp only [jobs_cons, ← Multiset.coe_add, ih]
    cases hs with
    -- a hand-over posts a watchdog
    | dispatch =>
      simp only [Act.dispatched?, Act.fainted?, Act.closed?, Multiset.map_cons,
        Option.toList_none, Option.toList_some, Multiset.coe_nil, Multiset.coe_singleton]
      simp only [← Multiset.singleton_add]
      abel
    -- a watchdog goes on in its place, or leaves in one of the two ways
    | awake hs | faint hs | watch hs | falter hs | close hs =>
      simp only [hs, Act.dispatched?, Act.fainted?, Act.closed?, Multiset.map_cons,
        Option.toList_none, Option.toList_some, Multiset.coe_nil, Multiset.coe_singleton]
      simp only [← Multiset.singleton_add]
      abel
    | _ =>
      simp only [Act.dispatched?, Act.fainted?, Act.closed?, Option.toList_none, Multiset.coe_nil,
        add_zero]

theorem ended_le (h : RunUnder ok r n past s) :
    (jobs Act.ended? past : Multiset Job) ≤ jobs Act.drawn? past := by
  rw [drawn_eq_ended h]
  exact Multiset.le_add_left _ _

theorem dispatched_le (h : RunUnder ok r n past s) :
    (jobs Act.dispatched? past : Multiset Job) ≤ jobs Act.drawn? past := by
  refine le_trans ?_ (ended_le h)
  rw [ended_eq]
  exact Multiset.le_add_right _ _

theorem closed_le (h : RunUnder ok r n past s) :
    (jobs Act.closed? past : Multiset Job) ≤ jobs Act.dispatched? past := by
  rw [dispatched_eq h, ← add_assoc]
  exact Multiset.le_add_left _ _

theorem drawn_of_dispatched (h : RunUnder ok r n past s) (hj : job ∈ jobs Act.dispatched? past) :
    job ∈ jobs Act.drawn? past :=
  Multiset.subset_of_le (dispatched_le h) hj

theorem dispatched_of_closed (h : RunUnder ok r n past s) (hj : job ∈ jobs Act.closed? past) :
    job ∈ jobs Act.dispatched? past :=
  Multiset.subset_of_le (closed_le h) hj

theorem dispatched_nodup (h : RunUnder ok r n past s) : (jobs Act.dispatched? past).Nodup :=
  jobs_nodup_of_le (dispatched_le h) (drawn_nodup h)

/-- No watchdog closes twice. -/
theorem closed_nodup (h : RunUnder ok r n past s) : (jobs Act.closed? past).Nodup :=
  jobs_nodup_of_le (closed_le h) (dispatched_nodup h)

/-! ### The running totals -/

/-- The totals after an act. -/
def Act.tally (e : Act) (totals : Stats) : Stats :=
  match e with
  | dispatch _ => { totals with enqueued := totals.enqueued + 1 }
  | skip _ => { totals with skipped := totals.skipped + 1 }
  | withdraw _ _ => { totals with enqueueFailed := totals.enqueueFailed + 1 }
  | close _ v _ => v.count totals
  | _ => totals

theorem Step.stats (h : Step r s e s') : s'.collector.stats = e.tally s.collector.stats := by
  cases h with
  | draw hk | reserve _ hk | enqueue _ hk | idle _ hk | take _ hk | begin _ hk | finish _ hk _ =>
    exact (congrArg (fun p => p.2.stats) hk).symm
  | _ => rfl

/-- The totals count what has happened, modulo 2^64. -/
theorem stats_eq (h : RunUnder ok r n past s) : s.collector.stats =
    { enqueued := .ofNat (jobs Act.dispatched? past).length
      skipped := .ofNat (jobs Act.skipped? past).length
      enqueueFailed := .ofNat (jobs Act.withdrawn? past).length
      watchdogCompleted := .ofNat (jobs (Act.closedAs? .completed) past).length
      watchdogTimeouts := .ofNat (jobs (Act.closedAs? .timedOut) past).length } := by
  induction h with
  | start => rfl
  | @step past s s' e _ hs _ ih =>
    rw [hs.stats, ih]
    cases e with
    | close job v now =>
      cases v <;> simp [Act.tally, Collector.Verdict.count, jobs_cons, Act.dispatched?,
        Act.skipped?, Act.withdrawn?, Act.closedAs?]
    | _ => simp [Act.tally, jobs_cons, Act.dispatched?, Act.skipped?, Act.withdrawn?, Act.closedAs?]

/-! ### The records in flight -/

/-- The jobs that were handed to a watchdog that has not closed. -/
def watched (past : List Act) : List Job :=
  (jobs Act.dispatched? past).filter (· ∉ jobs Act.closed? past)

theorem mem_watched : job ∈ watched past ↔
    job ∈ jobs Act.dispatched? past ∧ job ∉ jobs Act.closed? past := by
  rw [watched, List.mem_filter, decide_eq_true_eq]

/-- The records in flight after an act. -/
def Act.recordIn (e : Act) (records : List Dispatch) : List Dispatch :=
  match e with
  | dispatch job => records.filter (·.id != job.id) ++ [.ofJob job]
  | close job _ _ => records.filter (·.id != job.id)
  | _ => records

theorem Step.inFlight (h : Step r s e s') :
    s'.collector.inFlight = e.recordIn s.collector.inFlight := by
  cases h with
  | draw hk | reserve _ hk | enqueue _ hk | idle _ hk | take _ hk | begin _ hk | finish _ hk _ =>
    exact (congrArg (fun p => p.2.inFlight) hk).symm
  | _ => rfl

/-- The records in flight are those of the jobs whose watchdog has not closed. -/
theorem inFlight_eq (h : RunUnder ok r n past s) (hd : Distinct past) :
    s.collector.inFlight = (watched past).map .ofJob := by
  induction h with
  | start => rfl
  | @step past s s' e h hs hok ih =>
    have hnext := h.step hs hok
    -- jobs handed to a watchdog are told apart by their identifiers
    have hne : ∀ job ∈ watched past, ∀ other ∈ jobs Act.dispatched? (e :: past),
        ((Dispatch.ofJob job).id != other.id) = decide (job ≠ other) := by
      intro job hj other ho
      have hj' : job ∈ jobs Act.dispatched? (e :: past) :=
        mem_jobs_cons.2 (.inl (mem_watched.1 hj).1)
      rw [Bool.eq_iff_iff, bne_iff_ne, decide_eq_true_eq, not_iff_not]
      constructor
      · intro hid
        exact hd.eq_of_id_eq (drawn_of_dispatched hnext hj') (drawn_of_dispatched hnext ho) hid
      · rintro rfl
        rfl
    rw [hs.inFlight, ih hd.of_cons]
    cases e with
    | dispatch job =>
      have hmem : job ∈ jobs Act.dispatched? (.dispatch job :: past) := mem_jobs_cons.2 (.inr rfl)
      have hfresh : job ∉ jobs Act.dispatched? past :=
        notMem_of_nodup (dispatched_nodup hnext) rfl
      have hopen : job ∉ jobs Act.closed? past := fun hc => hfresh (dispatched_of_closed h hc)
      -- no record is replaced: none has the identifier of the new one
      have hkeep : ∀ d ∈ (watched past).map Dispatch.ofJob, (d.id != job.id) = true := by
        intro d hmemd
        obtain ⟨other, ho, rfl⟩ := List.mem_map.1 hmemd
        rw [hne other ho job hmem, decide_eq_true_eq]
        rintro rfl
        exact hfresh (mem_watched.1 ho).1
      have hnew : watched (.dispatch job :: past) = watched past ++ [job] := by
        simp [watched, jobs_cons, Act.dispatched?, Act.closed?, hopen]
      rw [Act.recordIn, List.filter_eq_self.2 hkeep, hnew, List.map_append, List.map_singleton]
    | close job v now =>
      have hmem : job ∈ jobs Act.dispatched? (.close job v now :: past) :=
        dispatched_of_closed hnext (mem_jobs_cons.2 (.inr rfl))
      -- the record that is taken out is that of this job alone
      have hnew : watched (.close job v now :: past) =
          (watched past).filter fun other => decide (other ≠ job) := by
        simp only [watched, List.filter_filter]
        simp [jobs_cons, Act.dispatched?, Act.closed?, and_comm]
      rw [Act.recordIn, List.filter_map, hnew]
      exact congrArg _ (List.filter_congr fun other ho => hne other ho job hmem)
    | _ => simp [Act.recordIn, watched, jobs_cons, Act.dispatched?, Act.closed?]

/-! ### The outcomes of a cycle -/

/-- The outcome with which an act concludes the cycle of a job. -/
def Act.outcomeOf? (job : Job) (e : Act) : Option Outcome :=
  e.conclusion?.bind fun m => if m.1 = job then some m.2 else none

/-- The outcomes with which the cycle of a job was concluded, in their order. -/
def outcomes (job : Job) (past : List Act) : List Outcome :=
  (past.filterMap (Act.outcomeOf? job)).reverse

theorem outcomes_cons (job : Job) (e : Act) (past : List Act) :
    outcomes job (e :: past) = outcomes job past ++ (e.outcomeOf? job).toList := by
  cases h : e.outcomeOf? job <;> simp [outcomes, h]

/-- A job has as many outcomes as its cycle was concluded times. -/
theorem length_outcomes (job : Job) (past : List Act) :
    (outcomes job past).length = (jobs Act.concluded? past).count job := by
  induction past with
  | nil => rfl
  | cons e past ih =>
    rw [outcomes_cons, jobs_cons, List.length_append, List.count_append, ih]
    cases he : e.conclusion? with
    | none => simp [Act.outcomeOf?, Act.concluded?, he]
    | some m => by_cases hm : m.1 = job <;> simp [Act.outcomeOf?, Act.concluded?, he, hm]

theorem concluded_le (h : RunUnder ok r n past s) :
    (jobs Act.concluded? past : Multiset Job) ≤ jobs Act.drawn? past := by
  refine le_trans ?_ (ended_le h)
  rw [ended_eq, concluded_eq]
  exact add_le_add_left (closed_le h) _

/-- No cycle is concluded twice. -/
theorem length_outcomes_le (h : RunUnder ok r n past s) (job : Job) :
    (outcomes job past).length ≤ 1 := by
  rw [length_outcomes]
  exact List.nodup_iff_count_le_one.1 (jobs_nodup_of_le (concluded_le h) (drawn_nodup h)) job

theorem outcomes_eq_nil (hj : job ∉ jobs Act.concluded? past) : outcomes job past = [] := by
  rw [← List.length_eq_zero_iff, length_outcomes]
  exact List.count_eq_zero.2 hj

/-- A cycle that was concluded has this one outcome. -/
theorem outcomes_eq_singleton (h : RunUnder ok r n past s) {outcome : Outcome} (he : e ∈ past)
    (hc : e.conclusion? = some (job, outcome)) : outcomes job past = [outcome] := by
  have hmem : outcome ∈ outcomes job past := by
    refine List.mem_reverse.2 (List.mem_filterMap.2 ⟨e, he, ?_⟩)
    simp [Act.outcomeOf?, hc]
  obtain ⟨only, honly⟩ := List.length_eq_one_iff.1
    (Nat.le_antisymm (length_outcomes_le h job) (List.length_pos_of_mem hmem))
  rw [honly] at hmem ⊢
  rw [List.mem_singleton.1 hmem]

/-! ### The span of a cycle -/

/-- A worker measures what it measured before, or has just begun. -/
theorem Step.site (h : Step r s e s') (c : Category) {job : Job} {span : Nat}
    (hw : (s'.worker c).site = some (job, span)) :
    (s.worker c).site = some (job, span) ∨
      span = s.spans.length ∧ s'.spans = s.spans ++
        [⟨job.cycle, .process job.category job.target job.id job.path, []⟩] := by
  -- what a worker of category `d` turns to concerns the worker of `c` if they are the same
  have hset : ∀ {d : Category} {w : WorkerStage}, s'.workers = s.workers.set d w →
      (s.worker c).site = some (job, span) ∨ c = d ∧ w.site = some (job, span) := by
    intro d w hs
    by_cases hcd : c = d
    · subst hcd
      rw [worker, hs, PerCategory.get_set] at hw
      exact .inr ⟨rfl, hw⟩
    · rw [worker, hs, PerCategory.get_set_of_ne _ _ hcd] at hw
      exact .inl hw
  cases h with
  | begin _ hk =>
    rcases hset rfl with hsame | ⟨-, hnew⟩
    · exact .inl hsame
    · cases hnew
      exact .inr (Collector.spans_begin hk)
  | look hw' _ | call hw' _ | pause hw' _ | note hw' =>
    rcases hset rfl with hsame | ⟨rfl, hnew⟩
    · exact .inl hsame
    · exact .inl ((congrArg WorkerStage.site hw').trans hnew)
  | ready | idle | take | settle | stop | finish =>
    rcases hset rfl with hsame | ⟨-, hnew⟩
    · exact .inl hsame
    · cases hnew
  | _ => exact .inl hw

/-- The span that a worker measures under is that of a processing. -/
theorem site_kind (h : RunUnder ok r n past s) {c : Category} {job : Job} {span : Nat}
    (hw : (s.worker c).site = some (job, span)) : (s.spans.map Span.kind)[span]? =
      some (.process job.category job.target job.id job.path) := by
  induction h with
  | start =>
    rw [worker_start] at hw
    cases hw
  | step _ hs _ ih =>
    rcases hs.site c hw with hw | ⟨rfl, hnew⟩
    · exact getElem?_of_prefix hs.kinds (ih hw)
    · rw [hnew]; simp

/-- A cycle that a step concludes is that of a job drawn before. -/
theorem drawn_of_conclusion (h : RunUnder ok r n past s) (hs : Step r s e s') (hok : ok s e)
    {outcome : Outcome} (he : e.conclusion? = some (job, outcome)) :
    job ∈ jobs Act.drawn? past := by
  have hcon : job ∈ jobs Act.concluded? (e :: past) :=
    mem_jobs_cons.2 (.inr (by rw [Act.concluded?, he]; rfl))
  rcases mem_jobs_cons.1 (Multiset.subset_of_le (concluded_le (h.step hs hok)) hcon) with hj | hd
  · exact hj
  · cases e <;> simp [Act.drawn?, Act.conclusion?] at hd he

/-- The span of the cycle of a job, with the outcomes that it has. -/
def CycleSpan (s : Engine) (job : Job) (outcomes : List Outcome) : Prop :=
  ∃ i span, job.cycle = some i ∧ s.spans[i]? = some span ∧
    span.kind = .cycle job.category job.target job.id ∧ span.outcomes.map Prod.fst = outcomes

/-- A step adds to the span of a cycle the outcome with which it concludes it. -/
theorem CycleSpan.step (h : RunUnder ok r n past s) (hs : Step r s e s') (hok : ok s e)
    (hj : job ∈ jobs Act.drawn? past) {outs : List Outcome} (hc : CycleSpan s job outs) :
    CycleSpan s' job (outs ++ (e.outcomeOf? job).toList) := by
  obtain ⟨i, span, hi, hspan, hkind, rfl⟩ := hc
  have hik : (s.spans.map Span.kind)[i]? = some (.cycle job.category job.target job.id) := by
    rw [List.getElem?_map, hspan, Option.map_some, hkind]
  have hchange := hs.spans
  unfold CycleSpan
  generalize s'.spans = spans at hchange ⊢
  cases hchange with
  | opened new he =>
    refine ⟨i, span, hi, ?_, hkind, by simp [Act.outcomeOf?, he]⟩
    rw [List.getElem?_append_left (List.getElem?_eq_some_iff.1 hspan).1, hspan]
  | @settled c busy site rest hw he outcome duration =>
    -- the worker concludes the span of a processing, which is no cycle
    have hsite := site_kind (c := c) h (congrArg WorkerStage.site hw)
    have hne : site ≠ i := by
      rintro rfl
      rw [hik] at hsite
      cases hsite
    exact ⟨i, span, hi, (List.getElem?_modify_ne _ _ hne).trans hspan, hkind,
      by simp [Act.outcomeOf?, he]⟩
  | @concluded other outcome he duration =>
    have hother := drawn_of_conclusion h hs hok he
    obtain ⟨k, hk, -⟩ := exists_cycle h hother
    have hspans : concludeSpan s.spans other.cycle outcome duration =
        s.spans.modify k (.conclude outcome duration) := by rw [hk]; rfl
    rw [hspans]
    -- cycles of different jobs are different spans
    by_cases hoj : other = job
    · subst hoj
      obtain rfl : i = k := Option.some.inj (hi.symm.trans hk)
      refine ⟨i, span.conclude outcome duration, hi, ?_, hkind, ?_⟩
      · rw [List.getElem?_modify_eq, hspan]; rfl
      · simp [Span.conclude, Act.outcomeOf?, he]
    · have hne : k ≠ i := by
        rintro rfl
        exact hoj (List.inj_on_of_nodup_map (cycles_nodup h) hother hj (hk.trans hi.symm))
      exact ⟨i, span, hi, (List.getElem?_modify_ne _ _ hne).trans hspan, hkind,
        by simp [Act.outcomeOf?, he, hoj]⟩

/-- The span of a cycle has the outcomes with which the cycle was concluded. -/
theorem cycle_outcomes (h : RunUnder ok r n past s) (hj : job ∈ jobs Act.drawn? past) :
    CycleSpan s job (outcomes job past) := by
  induction h with
  | start => cases hj
  | @step past s s' e h hs hok ih =>
    rw [outcomes_cons]
    -- the cycle goes on, or begins now with an empty span
    rcases mem_jobs_cons.1 hj with hj | he
    · exact (ih hj).step h hs hok hj
    · obtain ⟨t, clock, hk⟩ := hs.draw_of_some he
      obtain ⟨hc, hsp⟩ := Collector.draw_cycle hk
      have hfresh : job ∉ jobs Act.concluded? past := fun hmem =>
        notMem_of_nodup (drawn_nodup (h.step hs hok)) he
          (Multiset.subset_of_le (concluded_le h) hmem)
      have hnone : e.outcomeOf? job = none := by cases e <;> simp_all [Act.drawn?, Act.outcomeOf?,
        Act.conclusion?]
      refine ⟨_, ⟨none, .cycle job.category job.target job.id, []⟩, hc, ?_, rfl, ?_⟩
      · rw [Engine.spans, hsp, List.getElem?_concat_length]
      · rw [outcomes_eq_nil hfresh, hnone]; rfl

/-! ### The balance while no tick is under way -/

/-- The running totals. -/
def totals (s : Engine) : Stats := s.collector.stats

theorem length_drawn (h : RunUnder ok r n past s) (quiet : s.ticks = 0) :
    (jobs Act.drawn? past).length = (jobs Act.dispatched? past).length +
      ((jobs Act.skipped? past).length +
        ((jobs Act.withdrawn? past).length + (jobs Act.refused? past).length)) := by
  have hflow := congrArg Multiset.card (drawn_eq_ended h)
  rw [quiet, ended_eq] at hflow
  simpa using hflow

theorem length_closed (past : List Act) : (jobs Act.closed? past).length =
    (jobs (Act.closedAs? .completed) past).length +
      ((jobs (Act.closedAs? .timedOut) past).length +
        (jobs (Act.closedAs? .shutdown) past).length) := by
  simpa using congrArg Multiset.card (closed_eq past)

theorem length_dispatched (h : RunUnder ok r n past s) : (jobs Act.dispatched? past).length =
    (watched past).length + (jobs Act.closed? past).length := by
  -- both lists have no job twice, so it is enough that they have the same jobs
  have hclosed : List.Perm ((jobs Act.dispatched? past).filter (· ∈ jobs Act.closed? past))
      (jobs Act.closed? past) := by
    refine (List.perm_ext_iff_of_nodup ((dispatched_nodup h).filter _) (closed_nodup h)).2 ?_
    intro job
    rw [List.mem_filter, decide_eq_true_eq]
    exact ⟨And.right, fun hc => ⟨dispatched_of_closed h hc, hc⟩⟩
  have hsplit := List.length_eq_length_filter_add (l := jobs Act.dispatched? past)
    (· ∈ jobs Act.closed? past)
  rw [hsplit, hclosed.length_eq, Nat.add_comm, watched]
  simp only [decide_not]

theorem mem_accepted (h : RunUnder ok r n past s) (quiet : s.ticks = 0) :
    job ∈ jobs Act.accepted? past ↔ job ∈ jobs Act.dispatched? past := by
  have hflow := accepted_eq h
  rw [quiet, jobsAt, Multiset.filter_zero, Multiset.map_zero, zero_add] at hflow
  rw [← Multiset.mem_coe, hflow, Multiset.mem_coe]

/-- How the tick of a job ended, once no tick is under way. -/
theorem ended_cases (h : RunUnder ok r n past s) (quiet : s.ticks = 0)
    (hj : job ∈ jobs Act.drawn? past) :
    job ∈ jobs Act.dispatched? past ∨ job ∈ jobs Act.skipped? past ∨
      job ∈ jobs Act.withdrawn? past ∨ job ∈ jobs Act.refused? past := by
  have hflow := drawn_eq_ended h
  rw [quiet, Multiset.map_zero, zero_add, ended_eq] at hflow
  have hmem : job ∈ (jobs Act.drawn? past : Multiset Job) := hj
  rw [hflow, Multiset.mem_add, Multiset.mem_add, Multiset.mem_add] at hmem
  exact hmem

/-- A cycle whose watchdog has not closed is not concluded. -/
theorem notMem_concluded (h : RunUnder ok r n past s) (hj : job ∈ watched past) :
    job ∉ jobs Act.concluded? past := by
  obtain ⟨hdis, hopen⟩ := mem_watched.1 hj
  have hn := Multiset.nodup_of_le (ended_le h) (Multiset.coe_nodup.2 (drawn_nodup h))
  rw [ended_eq, Multiset.nodup_add] at hn
  intro hcon
  have hmem : job ∈ (jobs Act.concluded? past : Multiset Job) := hcon
  -- a tick that handed its job over did not end in another way
  rw [concluded_eq, Multiset.mem_add] at hmem
  rcases hmem with hc | hrest
  · exact hopen hc
  · exact Multiset.disjoint_left.1 hn.2.2 hdis hrest

/-- The span of a cycle that an act of one kind concluded. -/
theorem cycleSpan_of_mem (h : RunUnder ok r n past s) (hj : job ∈ jobs Act.drawn? past)
    {f : Act → Option Job} {outcome : Outcome}
    (hf : ∀ e, f e = some job → e.conclusion? = some (job, outcome)) (hmem : job ∈ jobs f past) :
    CycleSpan s job [outcome] := by
  obtain ⟨e, he, hfe⟩ := mem_jobs.1 hmem
  rw [← outcomes_eq_singleton h he (hf e hfe)]
  exact cycle_outcomes h hj

/-- The totals balance with the ticks, modulo 2^64. -/
theorem ticks_balance (h : RunUnder ok r n past s) (quiet : s.ticks = 0) :
    UInt64.ofNat (jobs Act.drawn? past).length =
      s.totals.enqueued + s.totals.skipped + s.totals.enqueueFailed +
        UInt64.ofNat (jobs Act.refused? past).length := by
  rw [totals, stats_eq h, length_drawn h quiet]
  simp only [UInt64.ofNat_add, UInt64.add_assoc]

/-- The totals balance with the records in flight, modulo 2^64. -/
theorem inFlight_balance (h : RunUnder ok r n past s) (hd : Distinct past) :
    s.totals.enqueued = UInt64.ofNat s.collector.inFlight.length +
      s.totals.watchdogCompleted + s.totals.watchdogTimeouts +
        UInt64.ofNat (jobs (Act.closedAs? .shutdown) past).length := by
  rw [totals, stats_eq h, inFlight_eq h hd, List.length_map, length_dispatched h,
    length_closed past]
  simp only [UInt64.ofNat_add, UInt64.add_assoc]

/-- The totals balance as numbers, as long as they do not run over. -/
theorem totals_balance (h : RunUnder ok r n past s) (quiet : s.ticks = 0)
    (few : (jobs Act.drawn? past).length < 2 ^ 64) :
    (jobs Act.drawn? past).length =
        s.totals.enqueued.toNat + s.totals.skipped.toNat + s.totals.enqueueFailed.toNat +
          (jobs Act.refused? past).length ∧
      s.totals.enqueued.toNat = s.collector.inFlight.length +
        s.totals.watchdogCompleted.toNat + s.totals.watchdogTimeouts.toNat +
          (jobs (Act.closedAs? .shutdown) past).length := by
  have hdrawn := length_drawn h quiet
  have hdispatched := length_dispatched h
  have hclosed := length_closed past
  -- no total exceeds the number of draws
  have hword : ∀ k, k < 2 ^ 64 → (UInt64.ofNat k).toNat = k := fun k hk =>
    UInt64.toNat_ofNat_of_lt' hk
  rw [totals, stats_eq h, inFlight_eq h (distinct_of_few h few), List.length_map]
  dsimp only
  rw [hword _ (by omega), hword _ (by omega), hword _ (by omega), hword _ (by omega),
    hword _ (by omega)]
  omega

/-- The records in flight are one for each job that was taken in and whose
watchdog has not closed. -/
theorem inFlight_records (h : RunUnder ok r n past s) (hd : Distinct past) (quiet : s.ticks = 0) :
    (s.collector.inFlight.map Dispatch.id).Nodup ∧ ∀ d, d ∈ s.collector.inFlight ↔
      ∃ job ∈ jobs Act.accepted? past, job ∉ jobs Act.closed? past ∧ d = .ofJob job := by
  rw [inFlight_eq h hd, List.map_map]
  constructor
  · refine ((dispatched_nodup h).filter _).map_on fun job hj other ho hid => ?_
    exact hd.eq_of_id_eq (drawn_of_dispatched h (mem_watched.1 hj).1)
      (drawn_of_dispatched h (mem_watched.1 ho).1) hid
  · intro d
    rw [List.mem_map]
    constructor
    · rintro ⟨job, hw, rfl⟩
      obtain ⟨hdis, hopen⟩ := mem_watched.1 hw
      exact ⟨job, (mem_accepted h quiet).2 hdis, hopen, rfl⟩
    · rintro ⟨job, hacc, hopen, rfl⟩
      exact ⟨job, mem_watched.2 ⟨(mem_accepted h quiet).1 hacc, hopen⟩, rfl⟩

/-- The span of the cycle of a job that was handed to a watchdog. -/
theorem cycleSpan_of_dispatched (h : RunUnder ok r n past s) (hj : job ∈ jobs Act.drawn? past)
    (hdis : job ∈ jobs Act.dispatched? past) :
    (∃ v, job ∈ jobs (Act.closedAs? v) past ∧ CycleSpan s job [v.outcome]) ∨
      (job ∉ jobs Act.closed? past ∧ CycleSpan s job []) := by
  by_cases hc : job ∈ jobs Act.closed? past
  · left
    obtain ⟨e, he, hce⟩ := mem_jobs.1 hc
    cases e with
    | close other v now =>
      cases hce
      have hv : job ∈ jobs (Act.closedAs? v) past := mem_jobs.2 ⟨_, he, if_pos rfl⟩
      refine ⟨v, hv, ?_⟩
      rw [← outcomes_eq_singleton h he rfl]
      exact cycle_outcomes h hj
    | _ => cases hce
  · right
    refine ⟨hc, ?_⟩
    rw [← outcomes_eq_nil (notMem_concluded h (mem_watched.2 ⟨hdis, hc⟩))]
    exact cycle_outcomes h hj

/-- Once no tick is under way: the ticks are those enqueued, skipped, failed to
enqueue and refused, and the span of each cycle has the one outcome that the
cycle was concluded with, or none while its watchdog has not closed.  As long as
identifiers tell the jobs apart, what was enqueued is in flight or was closed
with one of the three verdicts, the records in flight are those of the jobs that
were taken in and whose watchdog has not closed, and no watchdog closes twice.
The totals say so modulo 2^64, and exactly before they run over. -/
theorem conservation (h : Run r n past s) (quiet : s.ticks = 0) :
    UInt64.ofNat (jobs Act.drawn? past).length =
      s.totals.enqueued + s.totals.skipped + s.totals.enqueueFailed +
        UInt64.ofNat (jobs Act.refused? past).length ∧
    (Distinct past →
      s.totals.enqueued = UInt64.ofNat s.collector.inFlight.length +
        s.totals.watchdogCompleted + s.totals.watchdogTimeouts +
          UInt64.ofNat (jobs (Act.closedAs? .shutdown) past).length ∧
      (s.collector.inFlight.map Dispatch.id).Nodup ∧
      (∀ d, d ∈ s.collector.inFlight ↔
        ∃ job ∈ jobs Act.accepted? past, job ∉ jobs Act.closed? past ∧ d = .ofJob job) ∧
      (jobs Act.closed? past).Nodup ∧
      ∀ job ∈ jobs Act.closed? past, job ∈ jobs Act.accepted? past) ∧
    ((jobs Act.drawn? past).length < 2 ^ 64 → Distinct past ∧
      (jobs Act.drawn? past).length =
        s.totals.enqueued.toNat + s.totals.skipped.toNat + s.totals.enqueueFailed.toNat +
          (jobs Act.refused? past).length ∧
      s.totals.enqueued.toNat = s.collector.inFlight.length +
        s.totals.watchdogCompleted.toNat + s.totals.watchdogTimeouts.toNat +
          (jobs (Act.closedAs? .shutdown) past).length) ∧
    ∀ job ∈ jobs Act.drawn? past,
      (job ∈ jobs Act.skipped? past ∧ CycleSpan s job [.skipped]) ∨
      (job ∈ jobs Act.refused? past ∧ CycleSpan s job [.unregistered]) ∨
      (job ∈ jobs Act.withdrawn? past ∧ CycleSpan s job [.enqueueFailed]) ∨
      (∃ v, job ∈ jobs (Act.closedAs? v) past ∧ CycleSpan s job [v.outcome]) ∨
      (job ∈ jobs Act.accepted? past ∧ job ∉ jobs Act.closed? past ∧ CycleSpan s job []) := by
  refine ⟨ticks_balance h quiet, fun hd => ?_, fun few => ?_, fun job hj => ?_⟩
  · obtain ⟨hids, hrecords⟩ := inFlight_records h hd quiet
    refine ⟨inFlight_balance h hd, hids, hrecords, closed_nodup h, fun job hj => ?_⟩
    exact (mem_accepted h quiet).2 (dispatched_of_closed h hj)
  · exact ⟨distinct_of_few h few, totals_balance h quiet few⟩
  · rcases ended_cases h quiet hj with hdis | hskip | hwith | href
    · rcases cycleSpan_of_dispatched h hj hdis with hclosed | ⟨hopen, hspan⟩
      · exact .inr (.inr (.inr (.inl hclosed)))
      · exact .inr (.inr (.inr (.inr ⟨(mem_accepted h quiet).2 hdis, hopen, hspan⟩)))
    · refine .inl ⟨hskip, cycleSpan_of_mem h hj (fun e he => ?_) hskip⟩
      cases e <;> cases he
      rfl
    · refine .inr (.inr (.inl ⟨hwith, cycleSpan_of_mem h hj (fun e he => ?_) hwith⟩))
      cases e <;> cases he
      rfl
    · refine .inr (.inl ⟨href, cycleSpan_of_mem h hj (fun e he => ?_) href⟩)
      cases e <;> cases he
      rfl

/-- A tick whose watchdog is closed by a shutdown leaves nothing in flight. -/
theorem conservation_at_shutdown : ∃ past s, Run .standard 1 past s ∧ s.ticks = 0 ∧
    s.totals.enqueued = 1 ∧ (jobs (Act.closedAs? .shutdown) past).length = 1 ∧
    s.collector.inFlight.length = 0 := by
  have h₀ : Run .standard 1 [] _ := .start rfl
  have h₁ := h₀.step (.register _ sampleTarget) trivial
  obtain ⟨s, job, h₂, hsen, ht, hout, hnow, hone⟩ : ∃ s job,
      Run .standard 1 [.dispatch job, .enqueue job none, .reserve job .admitted, .draw job,
        .register sampleTarget] s ∧
      s.sentries = ⟨job, none⟩ ::ₘ 0 ∧ s.ticks = 0 ∧ job.timeout = .ofSecs 10 ∧ s.now = 0 ∧
      s.totals.enqueued = 1 :=
    ⟨_, _, h₁.handedOver (fun _ _ _ => trivial) sampleTarget 7 rfl, rfl, rfl, rfl, rfl, rfl⟩
  have hw : Watch.begin? .standard job.timeout s.now = some ⟨0, 15 * 10 ^ 9, 0⟩ := by
    rw [hout, hnow]; rfl
  -- the watchdog wakes, and the shutdown comes before its first look
  have h₃ := h₂.step (.awake hsen hw) trivial
  have h₄ := h₃.step (.shutdown _) trivial
  have h₅ := h₄.step (@Step.close _ _ job ⟨0, 15 * 10 ^ 9, 0⟩ .shutdown 0 rfl rfl) trivial
  have hbalance := ((conservation h₅ ht).2.2.1 (by simp [jobs_cons, Act.drawn?])).2.2
  refine ⟨_, _, h₅, ht, hone, rfl, ?_⟩
  have hclosed : (jobs (Act.closedAs? .shutdown) [.close job .shutdown s.now, .shutdown s.now,
      .awake job s.now, .dispatch job, .enqueue job none, .reserve job .admitted, .draw job,
      .register sampleTarget]).length = 1 := rfl
  have htoNat : s.totals.enqueued.toNat = 1 := by rw [hone]; rfl
  rw [hclosed] at hbalance
  have hsame := htoNat.symm.trans hbalance
  omega

end DiskWatch.Engine
