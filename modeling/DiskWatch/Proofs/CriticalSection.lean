/-
DiskWatch/Proofs/CriticalSection.lean

The critical section of a worker: from the step that begins a job to the one
that settles it.  In between, and only then, the ledger of the category points
at a job, and at that one.

The pointer and the mark of a target are two records.  The pointer is written
when a job begins, provided that its target is registered, and targets are never
struck out (`registered_of_admitted`); it is taken away by the identifier of the
job that is settled, which is the one it names.  One look at each step
(`Step.sect`) gives the invariant that links pointer, worker and history
(`Section`); the marks are those of the books.
-/
import DiskWatch.Proofs.Conservation

namespace DiskWatch

/-- The job that a worker measures. -/
def WorkerStage.measured (w : WorkerStage) : Option Job := w.site.map Prod.fst

theorem WorkerStage.measured_of_jobs {w : WorkerStage} (hj : w.jobs = []) : w.measured = none := by
  cases w with
  | holding job => cases hj
  | measuring job span rest => cases hj
  | _ => rfl

namespace Engine

variable {ok : Engine → Act → Prop} {r : Routine} {n : Nat} {past : List Act} {s s' : Engine}
  {e : Act} {c d : Category} {job other : Job}

/-- No step strikes a target out. -/
theorem LedgerStep.registered {name : String} (hl : LedgerStep c s e s')
    (h : ((s.ledger c).item? name).isSome) : ((s'.ledger c).item? name).isSome := by
  cases hl with
  | still hl => rw [hl]; exact h
  | register new hl => rw [hl]; exact Ledger.registered_register c new h
  | reserve job a _ _ _ hl => rwa [hl, Ledger.registered_congr (Ledger.names_reserve ..)]
  | withdraw job err _ _ _ hl => rwa [hl, Ledger.registered_congr (Ledger.names_release ..)]
  | begin _ job now _ _ _ hl => rwa [hl, Ledger.registered_congr (Ledger.names_start ..)]
  | settle _ job now duration _ _ _ hl =>
    rwa [hl, Ledger.registered_congr (Ledger.names_clear ..)]
  | depth _ hl => rw [hl]; exact h

/-- The target of an admitted job is registered, and stays so. -/
theorem registered_of_admitted (h : RunUnder ok r n past s)
    (hj : job ∈ jobs Act.admitted? past) :
    ((s.ledger job.category).item? job.target).isSome := by
  induction h with
  | start => cases hj
  | @step past s s' e _ hs _ ih =>
    apply (hs.ledger job.category).registered
    rcases mem_jobs_cons.1 hj with hj | he
    · exact ih hj
    · cases hs with
      | @reserve _ a k ticks ht hk =>
        -- nothing is admitted without a record
        cases a <;> cases he
        have ha : ((s.ledger job.category).reserve job.target job.id).1 = .admitted :=
          congrArg Prod.fst hk
        obtain ⟨i, hi, -⟩ := (Ledger.reserve_eq_admitted_iff _ _ _).1 ha
        exact Option.isSome_iff_exists.2 ⟨i, hi⟩
      | _ => cases he

/-! ### What a step does to a critical section -/

/-- The job that the worker of a category takes out of its queue by an act. -/
def Act.takenIn? (c : Category) : Act → Option Job
  | take d job => if d = c then some job else none
  | _ => none

/-- The job that the worker of a category begins by an act. -/
def Act.begunIn? (c : Category) : Act → Option Job
  | begin d job => if d = c then some job else none
  | _ => none

/-- An act by which the worker of a category neither takes, begins nor settles a job. -/
def Act.Passes (c : Category) (e : Act) : Prop :=
  e.takenIn? c = none ∧ e.begunIn? c = none ∧ e.settledIn? c = none

/-- The category whose worker does an act. -/
def Act.worker? : Act → Option Category
  | ready c => some c
  | idle c => some c
  | take c _ => some c
  | begin c _ => some c
  | look c _ => some c
  | call c _ => some c
  | pause c => some c
  | note c _ => some c
  | settle c _ => some c
  | stop c => some c
  | _ => none

theorem Act.passes_of_worker (he : e.worker? ≠ some c) : e.Passes c := by
  have hne : ∀ d, e.worker? = some d → d ≠ c := by
    rintro d hd rfl
    exact he hd
  cases e with
  | take d job => exact ⟨if_neg (hne d rfl), rfl, rfl⟩
  | begin d job => exact ⟨rfl, if_neg (hne d rfl), rfl⟩
  | settle d job => exact ⟨rfl, rfl, if_neg (hne d rfl)⟩
  | _ => exact ⟨rfl, rfl, rfl⟩

/-- What a step does to the worker of a category: it is a step of something else,
or the worker turns to something while it has no job, takes one out, begins it,
goes on with it by one exchange, or settles it. -/
inductive Turn (r : Routine) (c : Category) (s : Engine) (e : Act) (s' : Engine) : Prop
  | away (he : e.worker? ≠ some c) (hw : s'.worker c = s.worker c)
  | idle (he : e.Passes c) (hj : (s.worker c).jobs = []) (hj' : (s'.worker c).jobs = [])
  | take (job : Job) (he : e = .take c job) (hw : s.worker c = .ready)
      (hw' : s'.worker c = .holding job)
  | begin (job : Job) (span : Nat) (he : e = .begin c job) (hw : s.worker c = .holding job)
      (hw' : s'.worker c = .measuring job span (Measurement.take r.policy job.kind job.timeout))
  | goOn (job : Job) (span : Nat) (before rest : Activity (Except Error Measurement))
      (hc : e.worker? = some c) (he : e.Passes c) (hw : s.worker c = .measuring job span before)
      (hw' : s'.worker c = .measuring job span rest) (hn : before.Next rest)
  | settle (job : Job) (he : e = .settle c job) (hj : (s.worker c).jobs = [job])
      (hm : (s.worker c).measured = some job) (hw' : s'.worker c = .free)

/-- A step of the worker of `d`, as the worker of `c` sees it. -/
theorem Turn.ofSet {w : WorkerStage} (hs : s'.workers = s.workers.set d w)
    (he : e.worker? = some d) (hat : s'.worker d = w → Turn r d s e s') : Turn r c s e s' := by
  by_cases hcd : c = d
  · subst hcd
    apply hat
    rw [worker, hs, PerCategory.get_set]
  · apply Turn.away
    · intro hc
      exact hcd (Option.some.inj (hc.symm.trans he))
    · rw [worker, hs, PerCategory.get_set_of_ne _ _ hcd]
      rfl

/-- A worker without a job turns to something else without one. -/
theorem Turn.ofIdle {w w' : WorkerStage} (hw : s.workers.get d = w)
    (hs : s'.workers = s.workers.set d w') (he : e.worker? = some d) (hp : ∀ c, e.Passes c)
    (hj : w.jobs = []) (hj' : w'.jobs = []) (c : Category) : Turn r c s e s' := by
  apply Turn.ofSet hs he
  intro hw'
  apply Turn.idle (hp d)
  · rw [worker, hw, hj]
  · rw [hw', hj']

/-- A worker goes on with its measurement. -/
theorem Turn.ofMeasuring {span : Nat} {before rest : Activity (Except Error Measurement)}
    (hw : s.workers.get d = .measuring job span before)
    (hs : s'.workers = s.workers.set d (.measuring job span rest)) (he : e.worker? = some d)
    (hp : ∀ c, e.Passes c) (hn : before.Next rest) (c : Category) : Turn r c s e s' := by
  apply Turn.ofSet hs he
  intro hw'
  exact .goOn job span before rest he (hp d) hw hw' hn

/-- What a step does to a worker. -/
theorem Step.turn (h : Step r s e s') (c : Category) : Turn r c s e s' := by
  cases h with
  | @take d job k hw hk =>
    apply Turn.ofSet rfl rfl
    exact .take job rfl hw
  | @begin d job now span k hw hk =>
    apply Turn.ofSet rfl rfl
    exact .begin job span rfl hw
  | @settle d job span result now duration hw =>
    apply Turn.ofSet rfl rfl
    exact .settle job rfl (congrArg WorkerStage.jobs hw) (congrArg WorkerStage.measured hw)
  | look hw status =>
    exact .ofMeasuring hw rfl rfl (fun _ => ⟨rfl, rfl, rfl⟩) (.look _ _ status) c
  | call hw answer =>
    exact .ofMeasuring hw rfl rfl (fun _ => ⟨rfl, rfl, rfl⟩) (.call _ _ answer) c
  | @pause _ _ _ _ _ cut hw _ =>
    exact .ofMeasuring hw rfl rfl (fun _ => ⟨rfl, rfl, rfl⟩) (.pause _ _ cut) c
  | note hw => exact .ofMeasuring hw rfl rfl (fun _ => ⟨rfl, rfl, rfl⟩) (.note _ _) c
  | ready hw _ | idle hw _ | stop hw _ | finish hw _ _ =>
    exact .ofIdle hw rfl rfl (fun _ => ⟨rfl, rfl, rfl⟩) rfl rfl c
  | _ => exact .away nofun rfl

theorem Step.ledger_of_begin (h : Step r s (.begin d job) s') :
    ∃ now, s'.ledger job.category = ((s.ledger job.category).start job now).2 := by
  cases h with
  | @begin _ _ now span k hw hk =>
    have hl := congrArg (fun p => p.2.ledgers.get job.category) hk
    exact ⟨now, hl.symm.trans (PerCategory.get_set _ _ _)⟩

theorem Step.ledger_of_settle (h : Step r s (.settle d job) s') :
    ∃ now duration, s'.ledger job.category =
      ((s.ledger job.category).clear job.id now duration).2 := by
  cases h with
  | @settle _ _ span result now duration hw =>
    exact ⟨now, duration, PerCategory.get_set _ _ _⟩

/-- The job that is settled is at the worker. -/
theorem Step.mem_jobs (h : Step r s (.settle c job) s') : job ∈ (s.worker c).jobs := by
  cases h with
  | settle hw =>
    rw [worker, hw]
    exact List.mem_singleton_self job

/-- A job at a worker is of the category of the worker. -/
theorem category_of_mem_jobs (h : RunUnder ok r n past s) (hj : job ∈ (s.worker c).jobs) :
    job.category = c :=
  (live_of_line h (List.mem_append_left _ hj)).2

/-- As long as the worker of a category neither begins nor settles a job, the
pointer of the category stays where it is. -/
theorem running_of_passes (h : RunUnder ok r n past s) (hs : Step r s e s')
    (hb : e.begunIn? c = none) (hd : e.settledIn? c = none) :
    (s'.ledger c).running = (s.ledger c).running := by
  have hl := hs.ledger c
  cases hl with
  | begin d job now he hc hj _ =>
    obtain rfl : d = c := (category_of_mem_jobs h hj).symm.trans hc
    rw [he, Act.begunIn?, if_pos rfl] at hb
    cases hb
  | settle d job now duration he hc hj _ =>
    obtain rfl : d = c := (category_of_mem_jobs h hj).symm.trans hc
    rw [he, Act.settledIn?, if_pos rfl] at hd
    cases hd
  | still hl => rw [hl]
  | register name hl => rw [hl, Ledger.running_register]
  | reserve job _ _ _ _ hl => rw [hl, Ledger.running_reserve]
  | withdraw job _ _ _ _ hl => rw [hl, Ledger.running_release]
  | depth _ hl => rw [hl]; rfl

/-! ### Critical sections in a run -/

/-- A job that the worker of a category has begun and not settled. -/
def InSection (past : List Act) (c : Category) (job : Job) : Prop :=
  job ∈ jobs (Act.begunIn? c) past ∧ job ∉ jobs (Act.settledIn? c) past

/-- What a worker and its ledger look like: the jobs taken out are those settled
and then the one at the worker, the jobs begun are those settled and then the one
that is measured; the ledger points at that one and at no other; and the only call
that is left to make is the one for it. -/
structure Section (past : List Act) (s : Engine) (c : Category) : Prop where
  taken : jobs (Act.takenIn? c) past = jobs (Act.settledIn? c) past ++ (s.worker c).jobs
  begun : jobs (Act.begunIn? c) past =
    jobs (Act.settledIn? c) past ++ (s.worker c).measured.toList
  pointer : ∃ now, (s.ledger c).running =
    (s.worker c).measured.map (RunningJob.ofJob · now)
  calls : ∀ job span rest, s.worker c = .measuring job span rest →
    rest.Uses (· = Measurement.callOf job.kind job.timeout)

/-- An act by which the worker neither takes out nor begins nor settles a job keeps the section. -/
theorem Section.keep (h : Section past s c) (hrun : RunUnder ok r n past s) (hs : Step r s e s')
    (he : e.Passes c) (hj : (s'.worker c).jobs = (s.worker c).jobs)
    (hm : (s'.worker c).measured = (s.worker c).measured)
    (hr : ∀ job span rest, s'.worker c = .measuring job span rest →
      rest.Uses (· = Measurement.callOf job.kind job.timeout)) : Section (e :: past) s' c := by
  obtain ⟨ht, hb, hd⟩ := he
  obtain ⟨now, hnow⟩ := h.pointer
  refine ⟨?_, ?_, ⟨now, ?_⟩, hr⟩
  · rw [jobs_cons, jobs_cons, ht, hd, hj]
    simpa using h.taken
  · rw [jobs_cons, jobs_cons, hb, hd, hm]
    simpa using h.begun
  · rw [running_of_passes hrun hs hb hd, hm, hnow]

/-- Every run keeps its critical sections. -/
theorem sect (h : RunUnder ok r n past s) (c : Category) : Section past s c := by
  induction h with
  | start =>
    refine ⟨?_, ?_, ⟨0, ?_⟩, ?_⟩
    · rw [worker_start]; rfl
    · rw [worker_start]; rfl
    · rw [worker_start, ledger_start]; rfl
    · intro job span rest hw
      rw [worker_start] at hw
      cases hw
  | @step past s s' e h hs hok ih =>
    obtain ⟨now, hnow⟩ := ih.pointer
    cases hs.turn c with
    | away he hw =>
      apply ih.keep h hs (Act.passes_of_worker he)
      · rw [hw]
      · rw [hw]
      · rw [hw]
        exact ih.calls
    | idle he hj hj' =>
      have hm : (s.worker c).measured = none := WorkerStage.measured_of_jobs hj
      have hm' : (s'.worker c).measured = none := WorkerStage.measured_of_jobs hj'
      apply ih.keep h hs he
      · rw [hj, hj']
      · rw [hm, hm']
      · intro job span rest hw
        rw [hw] at hm'
        cases hm'
    | goOn job span before rest hc he hw hw' hn =>
      apply ih.keep h hs he
      · rw [hw, hw']
        rfl
      · rw [hw, hw']
        rfl
      · intro other span rest hmeas
        cases hw'.symm.trans hmeas
        exact (ih.calls _ _ _ hw).next hn
    | take job he hw hw' =>
      subst he
      have ht : (Act.take c job).takenIn? c = some job := if_pos rfl
      refine ⟨?_, ?_, ⟨now, ?_⟩, ?_⟩
      · rw [jobs_cons, jobs_cons, ht, ih.taken, hw, hw']
        simp [Act.settledIn?, WorkerStage.jobs]
      · rw [jobs_cons, jobs_cons, ih.begun, hw, hw']
        simp [Act.begunIn?, Act.settledIn?, WorkerStage.measured, WorkerStage.site]
      · rw [running_of_passes h hs rfl rfl, hnow, hw, hw']
        rfl
      · intro other span rest hmeas
        cases hw'.symm.trans hmeas
    | begin job span he hw hw' =>
      subst he
      have hb : (Act.begin c job).begunIn? c = some job := if_pos rfl
      have hj : job ∈ (s.worker c).jobs := by
        rw [hw]
        exact List.mem_singleton_self job
      obtain rfl := category_of_mem_jobs h hj
      obtain ⟨now, hl⟩ := hs.ledger_of_begin
      -- the target is registered, so the ledger is made to point at the job
      have hadm := (live_of_line h (List.mem_append_left _ hj)).1.1
      have hreg := registered_of_admitted h hadm
      refine ⟨?_, ?_, ⟨now, ?_⟩, ?_⟩
      · rw [jobs_cons, jobs_cons, ih.taken, hw, hw']
        simp [Act.takenIn?, Act.settledIn?, WorkerStage.jobs]
      · rw [jobs_cons, jobs_cons, hb, ih.begun, hw, hw']
        simp [Act.settledIn?, WorkerStage.measured, WorkerStage.site]
      · rw [hl, Ledger.start, if_pos hreg, hw']
        rfl
      · intro other span rest hmeas
        cases hw'.symm.trans hmeas
        exact Measurement.take_uses _ _ _
    | settle job he hj hm hw' =>
      subst he
      have hd : (Act.settle c job).settledIn? c = some job := if_pos rfl
      obtain rfl := category_of_mem_jobs h (hj ▸ List.mem_singleton_self job)
      obtain ⟨later, duration, hl⟩ := hs.ledger_of_settle
      refine ⟨?_, ?_, ⟨now, ?_⟩, ?_⟩
      · rw [jobs_cons, jobs_cons, hd, ih.taken, hj, hw']
        simp [Act.takenIn?, WorkerStage.jobs]
      · rw [jobs_cons, jobs_cons, hd, ih.begun, hm, hw']
        simp [Act.begunIn?, WorkerStage.measured, WorkerStage.site]
      · -- the pointer names the job that is settled
        rw [hl, Ledger.clear, hnow, hm, hw']
        simp [RunningJob.ofJob, WorkerStage.measured, WorkerStage.site]
      · intro other span rest hmeas
        cases hw'.symm.trans hmeas

/-! ### Who is in its section -/

theorem jobs_of_measured {w : WorkerStage} (hm : w.measured = some job) : w.jobs = [job] := by
  cases w with
  | measuring other span rest =>
    cases hm
    rfl
  | _ => cases hm

theorem notMem_settled (h : RunUnder ok r n past s) (hj : job ∈ (s.worker c).jobs) :
    job ∉ jobs (Act.settledIn? c) past := by
  intro hset
  obtain ⟨-, hrel⟩ := (live_of_line h (List.mem_append_left _ hj)).1
  exact hrel (mem_released.2 (.inr ⟨c, hset⟩))

/-- A job is in its section when its worker measures it. -/
theorem inSection_iff (h : RunUnder ok r n past s) :
    InSection past c job ↔ (s.worker c).measured = some job := by
  rw [InSection, (sect h c).begun, List.mem_append, Option.mem_toList]
  constructor
  · rintro ⟨hset | hm, hnot⟩
    · exact absurd hset hnot
    · exact hm
  · intro hm
    refine ⟨.inr hm, notMem_settled h ?_⟩
    rw [jobs_of_measured hm]
    exact List.mem_singleton_self job

theorem category_of_inSection (h : RunUnder ok r n past s) (hj : InSection past c job) :
    job.category = c := by
  apply category_of_mem_jobs h
  rw [jobs_of_measured ((inSection_iff h).1 hj)]
  exact List.mem_singleton_self job

theorem pointer_of_inSection (h : RunUnder ok r n past s) (hj : InSection past c job) :
    ∃ now, (s.ledger c).running = some (.ofJob job now) := by
  obtain ⟨now, hp⟩ := (sect h c).pointer
  rw [(inSection_iff h).1 hj] at hp
  exact ⟨now, hp⟩

theorem pointer_of_idle (h : RunUnder ok r n past s) (hm : (s.worker c).measured = none) :
    (s.ledger c).running = none := by
  obtain ⟨now, hp⟩ := (sect h c).pointer
  rw [hp, hm]
  rfl

/-- The worker of a category waits for the answer to a call. -/
def Calling (s : Engine) (c : Category) (job : Job) (k : Call) : Prop :=
  ∃ span next, s.worker c = .measuring job span (.call k next)

theorem Calling.inSection (h : RunUnder ok r n past s) {k : Call} (hk : s.Calling c job k) :
    InSection past c job := by
  obtain ⟨span, next, hw⟩ := hk
  rw [inSection_iff h, hw]
  rfl

theorem Calling.call_eq (h : RunUnder ok r n past s) {k : Call} (hk : s.Calling c job k) :
    k = Measurement.callOf job.kind job.timeout := by
  obtain ⟨span, next, hw⟩ := hk
  exact ((sect h c).calls job span _ hw).1

/-- A worker that holds a job whose path shows no fault may come to its tries. -/
theorem RunUnder.begun (hok : ∀ s e, (∀ t, e ≠ .elapse t) → ok s e) (h : RunUnder ok r n past s)
    (now : Instant) (hw : s.worker c = .holding job)
    (hg : Guard.textFault? job.kind.path = none) : ∃ k span read,
    RunUnder ok r n (.look c job.kind.path :: .begin c job :: past)
      { s with
        collector := k
        workers := s.workers.set c (.measuring job span ((Activity.retrying r.policy
          (Measurement.callOf job.kind job.timeout).program fun _ =>
            .call (Measurement.callOf job.kind job.timeout) .done).bind read)) } := by
  obtain ⟨next, htake, hnext⟩ := Measurement.take_of_sound r.policy job.timeout hg
  have h₁ := h.step (.begin hw (Prod.eta (s.collector.begin job now)).symm) (hok _ _ nofun)
  have h₂ := h₁.step (.look (by rw [PerCategory.get_set, htake]) .present) (hok _ _ nofun)
  rw [hnext, PerCategory.set_set] at h₂
  exact ⟨_, _, _, h₂⟩

/-- A worker that holds a job whose path shows no fault may come to its call. -/
theorem RunUnder.called (hok : ∀ s e, (∀ t, e ≠ .elapse t) → ok s e) (h : RunUnder ok r n past s)
    (now : Instant) (hw : s.worker c = .holding job)
    (hg : Guard.textFault? job.kind.path = none) :
    ∃ s', RunUnder ok r n (.look c job.kind.path :: .begin c job :: past) s' ∧
      s'.Calling c job (Measurement.callOf job.kind job.timeout) := by
  obtain ⟨k, span, read, hrun⟩ := h.begun hok now hw hg
  obtain ⟨rest, hrest⟩ := Activity.retrying_call r.policy
    (Measurement.callOf job.kind job.timeout).program (Measurement.callOf job.kind job.timeout)
  rw [hrest] at hrun
  exact ⟨_, hrun, span, _, PerCategory.get_set _ _ _⟩

/-! ### After a section -/

/-- A job that was settled is recorded nowhere, as long as identifiers differ. -/
theorem carries_of_settled (h : RunUnder ok r n past s) (hd : Distinct past)
    (hset : job ∈ jobs (Act.settledIn? c) past) (hp : (s.ledger c).running = none) :
    (s.ledger c).carries job.id = false := by
  have hb := books h hd c
  rw [Ledger.carries, hp, Option.any_none, Bool.false_or, List.any_eq_false]
  intro i hi hfor
  rw [Item.isFor, beq_iff_eq, ← Ledger.jobOf?_of_mem hb.sound hi] at hfor
  obtain ⟨other, hlive, -, -, hid⟩ := (hb.marks i.name job.id).1 hfor
  -- the mark is that of a live job, and this one has been let go
  have hrel : job ∈ jobs Act.released? past := mem_released.2 (.inr ⟨c, hset⟩)
  have hdrawn := drawn_of_admitted h (admitted_of_released h hrel)
  obtain rfl := hd.eq_of_id_eq (hlive.drawn h) hdrawn hid
  exact hlive.2 hrel

/-- The target of a job is idle once the job is settled. -/
theorem idle_of_settle (h : RunUnder ok r n past s) (hs : Step r s (.settle c job) s')
    (hok : ok s (.settle c job)) (hd : Distinct (.settle c job :: past)) :
    ∃ i, (s'.ledger c).item? job.target = some i ∧ i.running = false ∧ i.job = none := by
  have hnext := h.step hs hok
  obtain ⟨hlive, hc⟩ := live_of_line h (List.mem_append_left _ hs.mem_jobs)
  have hreg := registered_of_admitted hnext (mem_jobs_cons.2 (.inl hlive.1))
  rw [hc] at hreg
  obtain ⟨i, hi⟩ := Option.isSome_iff_exists.1 hreg
  have hnone : i.job = none := by
    apply Option.eq_none_iff_forall_ne_some.2
    intro id hid
    have hafter : (s'.ledger c).jobOf? job.target = some id := by
      rw [Ledger.jobOf?, hi, Option.bind_some, hid]
    obtain ⟨other, ho, hoc, hot, -⟩ := ((books hnext hd c).marks job.target id).1 hafter
    -- another live job of the target would have been there before, beside this one
    obtain ⟨hbefore, hne⟩ := (live_cons_of_released rfl rfl).1 ho
    exact hne ((books h hd.of_cons c).eq_of_target h hd.of_cons hbefore hlive hoc hc hot)
  refine ⟨i, hi, ?_, hnone⟩
  rw [(books hnext hd c).sound.flags i (Ledger.mem_of_item? hi).1, hnone]
  rfl

theorem worker_of_settle (h : RunUnder ok r n (.settle c job :: past) s) : s.worker c = .free := by
  cases h with
  | step _ hs _ =>
    cases hs with
    | settle _ => exact PerCategory.get_set _ _ _

theorem worker_of_take (h : RunUnder ok r n (.take c job :: past) s) :
    s.worker c = .holding job := by
  cases h with
  | step _ hs _ =>
    cases hs with
    | take _ _ => exact PerCategory.get_set _ _ _

/-- A worker that takes a job out has settled all those that it took before. -/
theorem settled_of_taken (h : RunUnder ok r n (.take c job :: past) s)
    (ho : other ∈ jobs (Act.takenIn? c) past) : other ∈ jobs (Act.settledIn? c) past := by
  cases h with
  | step h hs _ =>
    cases hs with
    | take hw _ =>
      rw [(sect h c).taken, worker, hw] at ho
      simpa [WorkerStage.jobs] using ho

/-! ### The critical section of a worker -/

/-- In every run, and for each category: the ledger points at a job exactly while
the worker of the category is in the critical section of that job, between the
beginning of the job and its settling.  No two jobs of a category are in their
sections at once, and no two calls for a category are under way at once.  A call
is made only within the section of the job that it is for.  Whatever the answers
were, once a job is settled the pointer is gone and the target is idle; and when
the worker takes the next job out, every job it took before has been settled,
and none of them is recorded any more.  (For the marks of the targets, running
numbers must not have repeated.) -/
theorem critical_section (h : Run r n past s) :
    (∀ c, ((s.ledger c).running.isSome ↔ ∃ job, InSection past c job) ∧
      ∀ job, InSection past c job →
        (s.worker c).measured = some job ∧
          ∃ now, (s.ledger c).running = some (.ofJob job now)) ∧
    (∀ c d job other, InSection past c job → InSection past d other →
      job.category = other.category → c = d ∧ job = other) ∧
    (∀ c d job other k k', s.Calling c job k → s.Calling d other k' →
      job.category = other.category → c = d ∧ job = other ∧ k = k') ∧
    (∀ c job k, s.Calling c job k → InSection past c job ∧
      k = Measurement.callOf job.kind job.timeout ∧
        ∃ now, (s.ledger c).running = some (.ofJob job now)) ∧
    (∀ c job before, past = .settle c job :: before →
      (s.ledger c).running = none ∧
        ((jobs Act.drawn? past).length < 2 ^ 64 →
          ∃ i, (s.ledger c).item? job.target = some i ∧ i.running = false ∧ i.job = none)) ∧
    ∀ c job before, past = .take c job :: before →
      (s.ledger c).running = none ∧
        ∀ other ∈ jobs (Act.takenIn? c) before,
          other ∈ jobs (Act.settledIn? c) before ∧
            ((jobs Act.drawn? past).length < 2 ^ 64 → (s.ledger c).carries other.id = false) := by
  have alone : ∀ c d job other, InSection past c job → InSection past d other →
      job.category = other.category → c = d ∧ job = other := by
    intro c d job other hj ho hcat
    obtain rfl : c = d :=
      (category_of_inSection h hj).symm.trans (hcat.trans (category_of_inSection h ho))
    rw [inSection_iff h] at hj ho
    exact ⟨rfl, Option.some.inj (hj.symm.trans ho)⟩
  refine ⟨fun c => ⟨⟨fun hp => ?_, ?_⟩, fun job hj => ?_⟩, alone, ?_, ?_, ?_, ?_⟩
  · by_contra hnone
    have hm : (s.worker c).measured = none := by
      apply Option.eq_none_iff_forall_ne_some.2
      intro job hm
      exact hnone ⟨job, (inSection_iff h).2 hm⟩
    rw [pointer_of_idle h hm] at hp
    cases hp
  · rintro ⟨job, hj⟩
    obtain ⟨now, hp⟩ := pointer_of_inSection h hj
    rw [hp]
    rfl
  · exact ⟨(inSection_iff h).1 hj, pointer_of_inSection h hj⟩
  · intro c d job other k k' hk hk' hcat
    obtain ⟨rfl, rfl⟩ := alone c d job other (hk.inSection h) (hk'.inSection h) hcat
    exact ⟨rfl, rfl, (hk.call_eq h).trans (hk'.call_eq h).symm⟩
  · intro c job k hk
    exact ⟨hk.inSection h, hk.call_eq h, pointer_of_inSection h (hk.inSection h)⟩
  · rintro c job before rfl
    have hw : s.worker c = .free := worker_of_settle h
    refine ⟨pointer_of_idle h (by rw [hw]; rfl), fun few => ?_⟩
    have hd := distinct_of_few h few
    cases h with
    | step h hs hok => exact idle_of_settle h hs hok hd
  · rintro c job before rfl
    have hw : s.worker c = .holding job := worker_of_take h
    have hp : (s.ledger c).running = none := pointer_of_idle h (by rw [hw]; rfl)
    refine ⟨hp, fun other ho => ?_⟩
    have hset : other ∈ jobs (Act.settledIn? c) before := settled_of_taken h ho
    refine ⟨hset, fun few => ?_⟩
    apply carries_of_settled h (distinct_of_few h few) _ hp
    exact mem_jobs_cons.2 (.inl hset)

/-- While `df` runs the ledger names the job that it runs for. -/
theorem critical_section_of_root : ∃ past s job k now, Run .standard 1 past s ∧
    s.Calling .filesystem job k ∧ k = ⟨"df", ["-k", "/"], .ofSecs 10⟩ ∧
    InSection past .filesystem job ∧
    (s.ledger .filesystem).running = some (.ofJob job now) := by
  have h₀ : Run .standard 1 [] _ := .start rfl
  have h₁ := h₀.step (.register _ sampleTarget) trivial
  have h₂ := h₁.handedOver (fun _ _ _ => trivial) sampleTarget 7 rfl
  have h₃ := h₂.step (.ready (c := .filesystem) rfl rfl) trivial
  have h₄ := h₃.step (.take (c := .filesystem) rfl rfl) trivial
  obtain ⟨s, h₅, hcalling⟩ := h₄.called (c := .filesystem) (fun _ _ _ => trivial) 0 rfl rfl
  obtain ⟨-, -, -, hcall, -⟩ := critical_section h₅
  obtain ⟨hin, hk, now, hp⟩ := hcall .filesystem _ _ hcalling
  exact ⟨_, s, _, _, now, h₅, hcalling, rfl, hin, hp⟩

end Engine

end DiskWatch
