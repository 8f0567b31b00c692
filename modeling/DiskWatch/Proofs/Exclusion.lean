/-
DiskWatch/Proofs/Exclusion.lean

At most one job of a target at a time.  A job is live from its admission until
its admission is taken back or the worker settles it.  Meanwhile it sits with
its tick, in the queue of its category, or at the worker of its category.

The ledger of a category keeps books on its live jobs: a target is marked with
an identifier exactly when a live job of the target has that identifier
(`Books`).  What a step does to a ledger is said once (`Step.ledger`), and every
such change keeps the books in order (`books`).  Since a target has one mark,
and identifiers differ, it has one live job.
-/
import DiskWatch.Proofs.HandOver
import DiskWatch.Proofs.Records

namespace DiskWatch.Engine

variable {ok : Engine → Act → Prop} {r : Routine} {n : Nat} {past : List Act} {s s' : Engine}
  {e : Act} {c : Category} {job other : Job}

/-! ### Live jobs -/

/-- The job that an act lets go of: its admission is taken back, or it is settled. -/
def Act.released? : Act → Option Job
  | withdraw job _ => some job
  | settle _ job => some job
  | _ => none

/-- A job that was admitted and that nobody has let go of. -/
def Live (past : List Act) (job : Job) : Prop :=
  job ∈ jobs Act.admitted? past ∧ job ∉ jobs Act.released? past

theorem mem_released : job ∈ jobs Act.released? past ↔
    job ∈ jobs Act.withdrawn? past ∨ ∃ c, job ∈ jobs (Act.settledIn? c) past := by
  induction past with
  | nil => simp
  | cons e past ih =>
    simp only [mem_jobs_cons, ih]
    cases e with
    | settle d job' =>
      have hd : ∀ c, Act.settledIn? c (.settle d job') = some job ↔ d = c ∧ job' = job := by
        intro c
        by_cases hdc : d = c <;> simp [Act.settledIn?, hdc]
      simp only [hd, Act.released?, Act.withdrawn?, exists_or, Option.some.injEq,
        exists_and_right, exists_eq', true_and, reduceCtorEq, or_false]
      tauto
    | _ => simp [Act.released?, Act.withdrawn?, Act.settledIn?, or_right_comm]

/-! ### What becomes of an admitted job -/

theorem decided_nodup (h : RunUnder ok r n past s) : (jobs Act.decided? past).Nodup := by
  refine jobs_nodup_of_le ?_ (drawn_nodup h)
  rw [drawn_eq_decided h]
  exact Multiset.le_add_left _ _

theorem admitted_sublist (past : List Act) :
    (jobs Act.admitted? past).Sublist (jobs Act.decided? past) := by
  refine jobs_sublist (fun e job he => ?_) past
  cases e with
  | reserve other a => cases a with
    | admitted => exact he
    | _ => cases he
  | _ => cases he

theorem drawn_of_admitted (h : RunUnder ok r n past s) (hj : job ∈ jobs Act.admitted? past) :
    job ∈ jobs Act.drawn? past := by
  have hd : job ∈ (jobs Act.drawn? past : Multiset Job) := by
    rw [drawn_eq_decided h]
    exact Multiset.mem_add.2 (.inr ((admitted_sublist past).subset hj))
  exact hd

theorem Live.drawn (hj : Live past job) (h : RunUnder ok r n past s) :
    job ∈ jobs Act.drawn? past := drawn_of_admitted h hj.1

/-- The parts of the admitted jobs: those pledged to their ticks, those taken in
by a queue, and those withdrawn. -/
theorem mem_admitted (h : RunUnder ok r n past s) : job ∈ jobs Act.admitted? past ↔
    job ∈ jobsAt TickStage.pledged s.ticks ∨ job ∈ jobs Act.accepted? past ∨
      job ∈ jobs Act.withdrawn? past := by
  rw [← Multiset.mem_coe, admitted_eq h, Multiset.mem_add, Multiset.mem_add]
  exact Iff.rfl

/-- No job is in two of these parts. -/
theorem admitted_parts (h : RunUnder ok r n past s) :
    (jobsAt TickStage.pledged s.ticks).Nodup ∧
      (∀ job ∈ jobsAt TickStage.pledged s.ticks,
        job ∉ jobs Act.accepted? past ∧ job ∉ jobs Act.withdrawn? past) ∧
      ∀ job ∈ jobs Act.accepted? past, job ∉ jobs Act.withdrawn? past := by
  -- the admitted jobs are the sum of the parts, and none was decided about twice
  have ha := Multiset.coe_nodup.2 ((decided_nodup h).sublist (admitted_sublist past))
  rw [admitted_eq h, Multiset.nodup_add, Multiset.nodup_add] at ha
  obtain ⟨hp, ⟨-, -, hdisj⟩, hdisj'⟩ := ha
  refine ⟨hp, fun job hj => ⟨fun hacc => ?_, fun hw => ?_⟩, fun job hacc hw => ?_⟩
  · exact Multiset.disjoint_left.1 hdisj' hj (Multiset.mem_add.2 (.inl hacc))
  · exact Multiset.disjoint_left.1 hdisj' hj (Multiset.mem_add.2 (.inr hw))
  · exact Multiset.disjoint_left.1 hdisj hacc hw

theorem acceptedIn_of_accepted (hj : job ∈ jobs Act.accepted? past) :
    job ∈ jobs (Act.acceptedIn? job.category) past := by
  obtain ⟨e, he, hacc⟩ := mem_jobs.1 hj
  refine mem_jobs.2 ⟨e, he, ?_⟩
  cases e with
  | enqueue other e => cases e with
    | none =>
      cases hacc
      exact if_pos rfl
    | some e => cases hacc
  | _ => cases hacc

/-- A worker settles jobs that the queue of its category took in. -/
theorem acceptedIn_of_settledIn (h : RunUnder ok r n past s)
    (hj : job ∈ jobs (Act.settledIn? c) past) : job ∈ jobs (Act.acceptedIn? c) past :=
  (line h c).mem_acceptedIn (List.mem_append_left _ (List.mem_append_left _ hj))

theorem admitted_of_released (h : RunUnder ok r n past s) (hj : job ∈ jobs Act.released? past) :
    job ∈ jobs Act.admitted? past := by
  rcases mem_released.1 hj with hw | ⟨c, hset⟩
  · exact (mem_admitted h).2 (.inr (.inr hw))
  · have hacc := (acceptedIn_sublist c past).subset (acceptedIn_of_settledIn h hset)
    exact (mem_admitted h).2 (.inr (.inl hacc))

/-! ### Where live jobs sit -/

/-- A job that is pledged to its tick is live. -/
theorem live_of_pledged (h : RunUnder ok r n past s)
    (hj : job ∈ jobsAt TickStage.pledged s.ticks) : Live past job := by
  obtain ⟨hacc, hw⟩ := (admitted_parts h).2.1 job hj
  refine ⟨(mem_admitted h).2 (.inl hj), fun hrel => ?_⟩
  rcases mem_released.1 hrel with hw' | ⟨c, hset⟩
  · exact hw hw'
  · exact hacc ((acceptedIn_sublist c past).subset (acceptedIn_of_settledIn h hset))

/-- A job at a worker or in a queue is live, and is of the category of both. -/
theorem live_of_line (h : RunUnder ok r n past s)
    (hj : job ∈ (s.worker c).jobs ++ (s.queue c).jobs) : Live past job ∧ job.category = c := by
  have hl := line h c
  have hin : job ∈ jobs (Act.acceptedIn? c) past :=
    hl.mem_acceptedIn (by rw [List.append_assoc]; exact List.mem_append_right _ hj)
  have hc := category_of_mem_acceptedIn hin
  have hacc := (acceptedIn_sublist c past).subset hin
  refine ⟨⟨(mem_admitted h).2 (.inr (.inl hacc)), fun hrel => ?_⟩, hc⟩
  rcases mem_released.1 hrel with hw | ⟨d, hset⟩
  · exact (admitted_parts h).2.2 job hacc hw
  · -- it would have been settled at its own worker, and be in its line twice
    have hd := category_of_mem_acceptedIn (acceptedIn_of_settledIn h hset)
    obtain rfl : d = c := hd.symm.trans hc
    obtain ⟨lost, horder, -⟩ := hl.order
    have hn := acceptedIn_nodup h d
    rw [horder, List.append_assoc, List.append_assoc, List.nodup_append'] at hn
    refine hn.2.2 hset ?_
    rw [← List.append_assoc]
    exact List.mem_append_left _ hj

/-- The places of a category: pledged to a tick, at the worker, in the queue. -/
def sitting (s : Engine) (c : Category) : Multiset Job :=
  (jobsAt TickStage.pledged s.ticks).filter (·.category = c) +
    ((s.worker c).jobs ++ (s.queue c).jobs : List Job)

theorem mem_sitting : job ∈ s.sitting c ↔
    (job ∈ jobsAt TickStage.pledged s.ticks ∧ job.category = c) ∨
      job ∈ (s.worker c).jobs ++ (s.queue c).jobs := by
  rw [sitting, Multiset.mem_add, Multiset.mem_filter, Multiset.mem_coe]

/-- No job sits at two places. -/
theorem sitting_nodup (h : RunUnder ok r n past s) (c : Category) : (s.sitting c).Nodup := by
  have hparts := admitted_parts h
  obtain ⟨lost, horder, -⟩ := (line h c).order
  have hn := acceptedIn_nodup h c
  rw [horder, List.append_assoc, List.append_assoc] at hn
  refine Multiset.nodup_add.2 ⟨hparts.1.filter _, ?_, ?_⟩
  · refine Multiset.coe_nodup.2 (hn.of_append_right.sublist ?_)
    rw [← List.append_assoc]
    exact List.sublist_append_left _ _
  · -- a job that is still pledged to its tick was not taken in by a queue
    refine Multiset.disjoint_left.2 fun hp hl => ?_
    have hin := (line h c).mem_acceptedIn (by
      rw [List.append_assoc]; exact List.mem_append_right _ (Multiset.mem_coe.1 hl))
    exact (hparts.2.1 _ (Multiset.mem_of_mem_filter hp)).1
      ((acceptedIn_sublist c past).subset hin)

/-- Until its worker stops, the live jobs of a category are those at its places. -/
theorem live_iff_sitting (h : RunUnder ok r n past s) (hon : s.worker c ≠ .stopped) :
    Live past job ∧ job.category = c ↔ job ∈ s.sitting c := by
  rw [mem_sitting]
  constructor
  · rintro ⟨⟨hadm, hrel⟩, rfl⟩
    -- the three parts of the admitted jobs: withdrawn ones are not live
    rcases (mem_admitted h).1 hadm with hp | hacc | hw
    · exact .inl ⟨hp, rfl⟩
    · obtain ⟨lost, horder, hlost⟩ := (line h job.category).order
      have hin := acceptedIn_of_accepted hacc
      rw [horder, hlost hon, List.append_nil, List.append_assoc, List.mem_append] at hin
      -- of the parts of the line only the settled one has let go of its jobs
      exact .inr (hin.resolve_left fun hset => hrel (mem_released.2 (.inr ⟨_, hset⟩)))
    · exact absurd (mem_released.2 (.inl hw)) hrel
  · rintro (⟨hp, hc⟩ | hl)
    · exact ⟨live_of_pledged h hp, hc⟩
    · exact live_of_line h hl

/-! ### What a step does to a ledger -/

/-- The ledger of a category. -/
def ledger (s : Engine) (c : Category) : Ledger := s.collector.ledgers.get c

@[simp] theorem ledger_start (q : Queue) (c : Category) : (start q).ledger c = .empty :=
  PerCategory.get_both _ c

/-- What a step may do to the ledger of a category. -/
inductive LedgerStep (c : Category) (s : Engine) (e : Act) (s' : Engine) : Prop
  | still (hl : s'.ledger c = s.ledger c)
      (ha : ∀ job, e.admitted? = some job → job.category ≠ c)
      (hr : ∀ job, e.released? = some job → job.category ≠ c)
  | register (name : String) (hl : s'.ledger c = (s.ledger c).register c name)
      (ha : e.admitted? = none) (hr : e.released? = none)
  | reserve (job : Job) (a : Admission) (he : e = .reserve job a) (hc : job.category = c)
      (ha : ((s.ledger c).reserve job.target job.id).1 = a)
      (hl : s'.ledger c = ((s.ledger c).reserve job.target job.id).2)
  | withdraw (job : Job) (err : Error) (he : e = .withdraw job err) (hc : job.category = c)
      (hj : job ∈ jobsAt TickStage.pledged s.ticks)
      (hl : s'.ledger c = ((s.ledger c).release job.target job.id).2)
  | begin (d : Category) (job : Job) (now : Instant) (he : e = .begin d job)
      (hc : job.category = c) (hj : job ∈ (s.worker d).jobs)
      (hl : s'.ledger c = ((s.ledger c).start job now).2)
  | settle (d : Category) (job : Job) (now : Instant) (duration : Duration)
      (he : e = .settle d job) (hc : job.category = c) (hj : job ∈ (s.worker d).jobs)
      (hl : s'.ledger c = ((s.ledger c).clear job.id now duration).2)
  | depth (depth : Nat) (hl : s'.ledger c = (s.ledger c).setDepth depth)
      (ha : e.admitted? = none) (hr : e.released? = none)

/-- A change to the ledger of one category is seen there and nowhere else. -/
theorem LedgerStep.ofUpdate {d : Category} {f : Ledger → Ledger}
    (hs : s'.collector.ledgers = s.collector.ledgers.update d f)
    (hat : s'.ledger d = f (s.ledger d) → LedgerStep d s e s')
    (ha : ∀ job, e.admitted? = some job → job.category = d)
    (hr : ∀ job, e.released? = some job → job.category = d) (c : Category) :
    LedgerStep c s e s' := by
  by_cases hc : c = d
  · subst hc
    refine hat ?_
    rw [ledger, hs, PerCategory.get_update]; rfl
  · refine .still ?_ (fun job hj hcat => ?_) (fun job hj hcat => ?_)
    · rw [ledger, hs, PerCategory.get_update_of_ne _ _ hc]; rfl
    · exact hc (hcat.symm.trans (ha job hj))
    · exact hc (hcat.symm.trans (hr job hj))

theorem forall_of_eq_none {o : Option Job} {p : Job → Prop} (ho : o = none) :
    ∀ job, o = some job → p job := by
  simp [ho]

theorem forall_of_eq_some {o : Option Job} {p : Job → Prop} (ho : o = some job) (hp : p job) :
    ∀ other, o = some other → p other := by
  simp [ho, hp]

/-- An act that lets nobody in and nobody go may leave a ledger as it is. -/
theorem LedgerStep.idle (hl : s'.ledger c = s.ledger c) (ha : e.admitted? = none)
    (hr : e.released? = none) : LedgerStep c s e s' :=
  .still hl (forall_of_eq_none ha) (forall_of_eq_none hr)

/-- What a step does to a ledger. -/
theorem Step.ledger (h : Step r s e s') (c : Category) : LedgerStep c s e s' := by
  cases h with
  | register t =>
    exact .ofUpdate (f := (·.register t.category t.name)) rfl
      (fun hl => .register t.name hl rfl rfl) (forall_of_eq_none rfl) (forall_of_eq_none rfl) c
  | @reserve job a k ticks ht hk =>
    have ha := congrArg Prod.fst hk
    have hk := (congrArg (fun p => p.2.ledgers) hk).symm
    refine .ofUpdate (f := fun _ => ((s.ledger job.category).reserve job.target job.id).2) hk
      (fun hl => .reserve job a rfl rfl ha hl)
      (fun other ho => ?_) (forall_of_eq_none rfl) c
    cases a <;> cases ho
    rfl
  | @withdraw job err ticks ht =>
    have hj : job ∈ jobsAt TickStage.pledged s.ticks :=
      (mem_jobsAt _).2 ⟨_, ht ▸ Multiset.mem_cons_self _ _, rfl, rfl⟩
    exact .ofUpdate (f := fun l => (l.release job.target job.id).2) rfl
      (fun hl => .withdraw job err rfl rfl hj hl)
      (forall_of_eq_none rfl) (forall_of_eq_some rfl rfl) c
  | @begin d job now span k hw hk =>
    have hk := (congrArg (fun p => p.2.ledgers) hk).symm
    have hj : job ∈ (s.worker d).jobs := by rw [worker, hw]; exact List.mem_singleton_self job
    exact .ofUpdate (f := fun _ => ((s.ledger job.category).start job now).2) hk
      (fun hl => .begin d job now rfl rfl hj hl) (forall_of_eq_none rfl) (forall_of_eq_none rfl) c
  | @settle d job span result now duration hw =>
    have hj : job ∈ (s.worker d).jobs := by rw [worker, hw]; exact List.mem_singleton_self job
    exact .ofUpdate (f := fun _ => ((s.ledger job.category).clear job.id now duration).2) rfl
      (fun hl => .settle d job now duration rfl rfl hj hl)
      (forall_of_eq_none rfl) (forall_of_eq_some rfl rfl) c
  | @recordDepth d depth hs =>
    exact .ofUpdate (f := (·.setDepth depth)) rfl (fun hl => .depth depth hl rfl rfl)
      (forall_of_eq_none rfl) (forall_of_eq_none rfl) c
  | draw hk | enqueue _ hk | idle _ hk | take _ hk | finish _ hk _ =>
    exact .idle (congrArg (fun p => p.2.ledgers.get c) hk).symm rfl rfl
  | _ => exact .idle rfl rfl rfl

/-! ### The books -/

/-- A live job of the target has this identifier. -/
def Marked (past : List Act) (c : Category) (name : String) (id : JobId) : Prop :=
  ∃ job, Live past job ∧ job.category = c ∧ job.target = name ∧ job.id = id

/-- The books of a category are in order: its ledger is sound, and marks a target
with an identifier exactly when a live job of the target has it. -/
structure Books (past : List Act) (s : Engine) (c : Category) : Prop where
  sound : (s.ledger c).Sound
  marks : ∀ name id, (s.ledger c).jobOf? name = some id ↔ Marked past c name id

/-- Identifiers tell the jobs of a run apart. -/
def Distinct (past : List Act) : Prop := ((jobs Act.drawn? past).map Job.id).Nodup

theorem Distinct.of_cons (h : Distinct (e :: past)) : Distinct past := by
  rw [Distinct, jobs_cons, List.map_append] at h
  exact h.of_append_left

/-- A single job is told apart from every other. -/
theorem Distinct.of_drawn (h : jobs Act.drawn? past = [job]) : Distinct past := by
  rw [Distinct, h]
  exact List.nodup_singleton _

theorem Distinct.eq_of_id_eq (hd : Distinct past) (hj : job ∈ jobs Act.drawn? past)
    (ho : other ∈ jobs Act.drawn? past) (hid : job.id = other.id) : job = other :=
  List.inj_on_of_nodup_map hd hj ho hid

/-- Live jobs of one target are one job: both have the identifier that the target
is marked with. -/
theorem Books.eq_of_target (hb : Books past s c) (h : RunUnder ok r n past s) (hd : Distinct past)
    (hj : Live past job) (ho : Live past other) (hjc : job.category = c)
    (hoc : other.category = c) (ht : job.target = other.target) : job = other := by
  have hmark := (hb.marks other.target job.id).2 ⟨job, hj, hjc, ht, rfl⟩
  have hmark' := (hb.marks other.target other.id).2 ⟨other, ho, hoc, rfl, rfl⟩
  exact hd.eq_of_id_eq (hj.drawn h) (ho.drawn h) (Option.some.inj (hmark.symm.trans hmark'))

/-- The identifier of a live job marks its target and no other one. -/
theorem Books.jobOf?_iff (hb : Books past s c) (h : RunUnder ok r n past s) (hd : Distinct past)
    (hj : Live past job) (hc : job.category = c) (name : String) :
    (s.ledger c).jobOf? name = some job.id ↔ name = job.target := by
  rw [hb.marks]
  constructor
  · rintro ⟨other, ho, -, hot, hid⟩
    rw [← hot, hd.eq_of_id_eq (ho.drawn h) (hj.drawn h) hid]
  · rintro rfl
    exact ⟨job, hj, hc, rfl, rfl⟩

/-- A target is shown running while it has a live job. -/
theorem Books.running_iff (hb : Books past s c) {name : String} {i : Item}
    (hi : (s.ledger c).item? name = some i) :
    i.running = true ↔ ∃ job, Live past job ∧ job.category = c ∧ job.target = name := by
  have hjob : (s.ledger c).jobOf? name = i.job := by rw [Ledger.jobOf?, hi]; rfl
  rw [hb.sound.flags i (Ledger.mem_of_item? hi).1, Option.isSome_iff_exists, ← hjob]
  constructor
  · rintro ⟨id, hid⟩
    obtain ⟨job, hj, hc, ht, -⟩ := (hb.marks name id).1 hid
    exact ⟨job, hj, hc, ht⟩
  · rintro ⟨job, hj, hc, ht⟩
    exact ⟨job.id, (hb.marks name job.id).2 ⟨job, hj, hc, ht, rfl⟩⟩

/-- An act that lets nobody in and nobody go leaves the live jobs as they are. -/
theorem marked_cons_of_ne {name : String} {id : JobId}
    (ha : ∀ job, e.admitted? = some job → job.category ≠ c)
    (hr : ∀ job, e.released? = some job → job.category ≠ c) :
    Marked (e :: past) c name id ↔ Marked past c name id := by
  refine exists_congr fun job => and_congr_left fun ⟨hc, _⟩ => ?_
  have ha' : e.admitted? ≠ some job := fun he => ha job he hc
  have hr' : e.released? ≠ some job := fun he => hr job he hc
  simp [Live, mem_jobs_cons, ha', hr']

/-- A job that is let go of is not live any more; the others stay live. -/
theorem live_cons_of_released (ha : e.admitted? = none) (hr : e.released? = some job) :
    Live (e :: past) other ↔ Live past other ∧ other ≠ job := by
  simp only [Live, mem_jobs_cons, ha, hr, Option.some.injEq, reduceCtorEq, or_false, not_or,
    and_assoc, ne_comm (a := other)]

/-- Letting a job go takes away one mark. -/
theorem Books.letGo (hb : Books past s c) (hd : Distinct past) (h : RunUnder ok r n past s)
    (hj : Live past job) (hc : job.category = c) (ha : e.admitted? = none)
    (hr : e.released? = some job) (hs : (s'.ledger c).Sound)
    (hl : (s'.ledger c).jobOf? = Function.update (s.ledger c).jobOf? job.target none) :
    Books (e :: past) s' c := by
  refine ⟨hs, fun name id => ?_⟩
  rw [hl]
  by_cases hname : name = job.target
  · subst hname
    rw [Function.update_self]
    refine iff_of_false nofun ?_
    rintro ⟨other, ho, hoc, hot, -⟩
    obtain ⟨holive, hne⟩ := (live_cons_of_released ha hr).1 ho
    exact hne (hb.eq_of_target h hd holive hj hoc hc hot)
  · rw [Function.update_of_ne hname, hb.marks]
    refine exists_congr fun other => ?_
    rw [live_cons_of_released ha hr]
    constructor
    · rintro ⟨ho, hoc, hot, hid⟩
      exact ⟨⟨ho, fun he => hname (hot ▸ he ▸ rfl)⟩, hoc, hot, hid⟩
    · rintro ⟨⟨ho, -⟩, hrest⟩
      exact ⟨ho, hrest⟩

/-- Admitting a job makes a mark where there was none. -/
theorem Books.admit (hb : Books past s c) (hc : job.category = c)
    (hnew : job ∉ jobs Act.released? past) (hnone : (s.ledger c).jobOf? job.target = none)
    (hs : (s'.ledger c).Sound)
    (hl : (s'.ledger c).jobOf? = Function.update (s.ledger c).jobOf? job.target (some job.id)) :
    Books (.reserve job .admitted :: past) s' c := by
  have hlive : ∀ other, Live (.reserve job .admitted :: past) other ↔
      Live past other ∨ other = job := by
    intro other
    simp only [Live, mem_jobs_cons, Act.admitted?, Act.released?, Option.some.injEq,
      reduceCtorEq, or_false, or_and_right, eq_comm (a := job)]
    refine or_congr Iff.rfl ⟨fun ho => ho.1, ?_⟩
    rintro rfl
    exact ⟨rfl, hnew⟩
  refine ⟨hs, fun name id => ?_⟩
  rw [hl]
  -- at the target of the job there was no live job so far; elsewhere nothing changes
  by_cases hname : name = job.target
  · subst hname
    rw [Function.update_self, Option.some.injEq]
    constructor
    · rintro rfl
      exact ⟨job, (hlive job).2 (.inr rfl), hc, rfl, rfl⟩
    · rintro ⟨other, ho, hoc, hot, hid⟩
      rcases (hlive other).1 ho with ho | rfl
      · have hmark := (hb.marks job.target id).2 ⟨other, ho, hoc, hot, hid⟩
        rw [hnone] at hmark
        cases hmark
      · exact hid
  · rw [Function.update_of_ne hname, hb.marks]
    refine exists_congr fun other => ?_
    rw [hlive]
    constructor
    · rintro ⟨ho, hrest⟩
      exact ⟨.inl ho, hrest⟩
    · rintro ⟨ho | rfl, hoc, hot, hid⟩
      · exact ⟨ho, hoc, hot, hid⟩
      · exact absurd hot.symm hname

/-- Every run keeps the books in order. -/
theorem books (h : RunUnder ok r n past s) (hd : Distinct past) (c : Category) :
    Books past s c := by
  induction h with
  | start =>
    -- nothing is marked in an empty ledger, and nothing is live
    refine ⟨ledger_start _ c ▸ Ledger.Sound.empty, fun name id => ?_⟩
    rw [ledger_start]
    exact iff_of_false nofun fun ⟨_, hlive, _⟩ => by cases hlive.1
  | @step past s s' e h hs hok ih =>
    have hd' := hd.of_cons
    have hb := ih hd'
    cases hs.ledger c with
    | still hl ha hr =>
      exact ⟨hl ▸ hb.sound, fun name id => by rw [hl, hb.marks, marked_cons_of_ne ha hr]⟩
    | register name hl ha hr =>
      refine ⟨hl ▸ hb.sound.register c name, fun other id => ?_⟩
      rw [hl, Ledger.jobOf?_register, hb.marks, marked_cons_of_ne (by simp [ha]) (by simp [hr])]
    | depth depth hl ha hr =>
      have hsame : (s'.ledger c).jobOf? = (s.ledger c).jobOf? := by rw [hl]; rfl
      refine ⟨hl ▸ ⟨hb.sound.names, hb.sound.flags⟩, fun other id => ?_⟩
      rw [hsame, hb.marks, marked_cons_of_ne (by simp [ha]) (by simp [hr])]
    | reserve job a he hc ha hl =>
      subst he ha
      have hs' : (s'.ledger c).Sound := hl ▸ hb.sound.reserve job.target job.id
      -- of the three decisions only an admission changes the ledger
      rcases Ledger.reserve_eq hb.sound job.target job.id with ⟨-, hr⟩ | ⟨-, hr⟩ | ⟨hreg, hnone, hr⟩
      · rw [hr] at hl ⊢
        exact ⟨hs', fun name id => by rw [hl, hb.marks, marked_cons_of_ne (by nofun) (by nofun)]⟩
      · rw [hr] at hl ⊢
        exact ⟨hs', fun name id => by rw [hl, hb.marks, marked_cons_of_ne (by nofun) (by nofun)]⟩
      · rw [hr] at hl ⊢
        refine hb.admit hc (fun hrel => ?_) hnone hs' ?_
        · -- it would have been decided about before
          have hfresh := notMem_of_nodup (decided_nodup (h.step hs hok)) rfl
          exact hfresh ((admitted_sublist past).subset (admitted_of_released h hrel))
        · rw [hl]
          exact Ledger.jobOf?_changeItem hreg (fun _ => rfl) fun _ => rfl
    | withdraw job err he hc hj hl =>
      subst he
      have hlive := live_of_pledged h hj
      have hmark := (hb.marks job.target job.id).2 ⟨job, hlive, hc, rfl, rfl⟩
      refine hb.letGo hd' h hlive hc rfl rfl (hl ▸ hb.sound.release _ _) ?_
      rw [hl, Ledger.jobOf?_release hmark]
    | begin d job now he hc hj hl =>
      subst he
      have hlive := (live_of_line h (List.mem_append_left _ hj)).1
      have hmark := (hb.marks job.target job.id).2 ⟨job, hlive, hc, rfl, rfl⟩
      -- the worker begins with the job that its target is marked with
      refine ⟨hl ▸ hb.sound.start job now, fun name id => ?_⟩
      rw [hl, Ledger.jobOf?_start now hmark, hb.marks,
        marked_cons_of_ne (by nofun) (by nofun)]
    | settle d job now duration he hc hj hl =>
      subst he
      have hlive := (live_of_line h (List.mem_append_left _ hj)).1
      refine hb.letGo hd' h hlive hc rfl rfl (hl ▸ hb.sound.clear _ _ _) ?_
      rw [hl]
      -- the worker looks for the identifier, which marks no other target
      exact Ledger.jobOf?_clear hb.sound now duration (hb.jobOf?_iff h hd' hlive hc)

/-! ### One live job of a target -/

theorem distinct_of_few (h : RunUnder ok r n past s)
    (few : (jobs Act.drawn? past).length < 2 ^ 64) : Distinct past :=
  ids_nodup h (Nat.le_of_lt few)

/-- In every run, as long as running numbers do not repeat: a target has at most
one live job, and a queue holds jobs of its own category.  Until the worker of a
category stops, the live jobs of the category are those that sit at its places,
each at one of them; and a registered target is shown running exactly when it
has a live job, and then with the identifier of that job. -/
theorem one_live_job (h : Run r n past s) (few : (jobs Act.drawn? past).length < 2 ^ 64) :
    (∀ job other, Live past job → Live past other → job.category = other.category →
      job.target = other.target → job = other) ∧
    (∀ c, ∀ job ∈ (s.queue c).jobs, job.category = c) ∧
    ∀ c, s.worker c ≠ .stopped →
      (s.sitting c).Nodup ∧
      (∀ job, Live past job ∧ job.category = c ↔ job ∈ s.sitting c) ∧
      ∀ name item, (s.ledger c).item? name = some item →
        (item.running = true ↔ ∃ job, Live past job ∧ job.category = c ∧ job.target = name) ∧
        ∀ job, Live past job → job.category = c → job.target = name →
          item.job = some job.id := by
  have hd := distinct_of_few h few
  refine ⟨fun job other hj ho hc ht => ?_, fun c job hj => ?_, fun c hon => ?_⟩
  · -- both jobs are marked at one target, which has one mark
    have hmark := ((books h hd job.category).marks job.target job.id).2 ⟨job, hj, rfl, rfl, rfl⟩
    have hmark' := ((books h hd job.category).marks job.target other.id).2
      ⟨other, ho, hc.symm, ht.symm, rfl⟩
    exact hd.eq_of_id_eq (hj.drawn h) (ho.drawn h) (Option.some.inj (hmark.symm.trans hmark'))
  · exact (live_of_line h (List.mem_append_right _ hj)).2
  · refine ⟨sitting_nodup h c, fun job => live_iff_sitting h hon, fun name item hi => ?_⟩
    have hb := books h hd c
    have hjob : (s.ledger c).jobOf? name = item.job := by rw [Ledger.jobOf?, hi]; rfl
    have hflag := hb.sound.flags item (Ledger.mem_of_item? hi).1
    refine ⟨?_, fun job hj hc ht => ?_⟩
    · rw [hflag, Option.isSome_iff_exists, ← hjob]
      constructor
      · rintro ⟨id, hid⟩
        obtain ⟨job, hj, hc, ht, -⟩ := (hb.marks name id).1 hid
        exact ⟨job, hj, hc, ht⟩
      · rintro ⟨job, hj, hc, ht⟩
        exact ⟨job.id, (hb.marks name job.id).2 ⟨job, hj, hc, ht, rfl⟩⟩
    · rw [← hjob]
      exact (hb.marks name job.id).2 ⟨job, hj, hc, ht, rfl⟩

/-- A target whose job is at the worker is shown running with it. -/
theorem one_live_job_at_worker : ∃ past s job, Run .standard 1 past s ∧
    (s.worker .filesystem).jobs = [job] ∧ Live past job ∧
    ∀ item, (s.ledger .filesystem).item? "root" = some item →
      item.running = true ∧ item.job = some job.id := by
  have h₀ : Run .standard 1 [] _ := .start rfl
  have h₁ := h₀.step (.register _ sampleTarget) trivial
  have h₂ := h₁.handedOver (fun _ _ _ => trivial) sampleTarget 7 rfl
  have h₃ := h₂.step (.ready (c := .filesystem) rfl rfl) trivial
  have h₄ := h₃.step (.take (c := .filesystem) rfl rfl) trivial
  obtain ⟨-, -, hall⟩ := one_live_job h₄ (by decide)
  obtain ⟨-, hsit, hitem⟩ := hall .filesystem nofun
  have hlive := ((hsit _).2 (mem_sitting.2 (.inr (List.mem_cons_self)))).1
  refine ⟨_, _, _, h₄, rfl, hlive, fun item hi => ⟨?_, ?_⟩⟩
  · exact (hitem "root" item hi).1.2 ⟨_, hlive, rfl, rfl⟩
  · exact (hitem "root" item hi).2 _ hlive rfl rfl

end DiskWatch.Engine
