/-
DiskWatch/Proofs/Rest.lean

The engine at rest: no tick is under way, and the workers have stopped.  What the
ledgers then say can be told from the history, wherever the tasks were cut off.

The jobs of a target follow one another.  A live one is the last that was
admitted (`lastAdmitted?_of_live`), and the runs that a target counts are its jobs
that were settled (`counts`, and `counts_exact` as long as the number fits).  A worker
that has stopped has settled all that it took out.  So a target counts one run for each
of its jobs that was taken out (`AtRest.completedRuns`), and it is left running when its
last job went into the queue and did not come out (`AtRest.running_iff`).

Watchdogs are not at rest.  What they have not closed is in flight, and the spans
of these cycles, and of no others, lack an outcome (`cycle_of_quiet`).
-/
import DiskWatch.Proofs.CriticalSection

namespace DiskWatch.Engine

variable {ok : Engine → Act → Prop} {r : Routine} {n : Nat} {past : List Act} {s s' : Engine}
  {e : Act} {c : Category} {job other : Job} {name : String}

/-! ### The last job of a target -/

/-- The last job of a target that was admitted. -/
def lastAdmitted? (past : List Act) (c : Category) (name : String) : Option Job :=
  ((jobs Act.admitted? past).filter fun job => job.category = c ∧ job.target = name).getLast?

/-- A job that is admitted is the last one of its target. -/
theorem lastAdmitted?_now (past : List Act) (he : e.admitted? = some job) :
    lastAdmitted? (e :: past) job.category job.target = some job := by
  rw [lastAdmitted?, jobs_cons, he, List.filter_append]
  simp

theorem lastAdmitted?_before (past : List Act)
    (he : ∀ new, e.admitted? = some new → ¬(new.category = c ∧ new.target = name)) :
    lastAdmitted? (e :: past) c name = lastAdmitted? past c name := by
  have hnone : e.admitted?.toList.filter (fun job => job.category = c ∧ job.target = name) = [] := by
    rw [List.filter_eq_nil_iff]
    intro new hnew
    rw [decide_eq_true_eq]
    exact he new (Option.mem_toList.1 hnew)
  rw [lastAdmitted?, jobs_cons, List.filter_append, hnone, List.append_nil]
  rfl

theorem lastAdmitted?_eq_some (h : lastAdmitted? past c name = some job) :
    job ∈ jobs Act.admitted? past ∧ job.category = c ∧ job.target = name := by
  have hmem := List.mem_of_getLast? h
  rwa [List.mem_filter, decide_eq_true_eq] at hmem

/-- A job that is admitted now is live. -/
theorem live_of_admitted_now (h : RunUnder ok r n (e :: past) s) (he : e.admitted? = some job) :
    Live (e :: past) job := by
  refine ⟨mem_jobs_cons.2 (.inr he), fun hrel => ?_⟩
  have hn := (decided_nodup h).sublist (admitted_sublist _)
  rcases mem_jobs_cons.1 hrel with hrel | hrel
  · cases h with
    | step h _ _ => exact notMem_of_nodup hn he (admitted_of_released h hrel)
  · -- no act both lets a job in and lets it go
    cases e <;> first | cases he | cases hrel

/-- A live job is the last one of its target that was admitted. -/
theorem lastAdmitted?_of_live (h : RunUnder ok r n past s) (hd : Distinct past)
    (hj : Live past job) : lastAdmitted? past job.category job.target = some job := by
  induction h with
  | start => cases hj.1
  | @step past s s' e h hs hok ih =>
    by_cases hnew : ∃ new, e.admitted? = some new ∧
        new.category = job.category ∧ new.target = job.target
    · -- an admission to a target that has a live job is that of this job
      obtain ⟨new, he, hc, ht⟩ := hnew
      have hnext := h.step hs hok
      have hlive := live_of_admitted_now hnext he
      obtain rfl := (books hnext hd job.category).eq_of_target hnext hd hlive hj hc rfl ht
      exact lastAdmitted?_now past he
    · have hother : ∀ new, e.admitted? = some new →
          ¬(new.category = job.category ∧ new.target = job.target) :=
        fun new he hp => hnew ⟨new, he, hp⟩
      rw [lastAdmitted?_before past hother]
      refine ih hd.of_cons ⟨?_, fun hrel => hj.2 (mem_jobs_cons.2 (.inl hrel))⟩
      exact (mem_jobs_cons.1 hj.1).resolve_right fun he => hother job he ⟨rfl, rfl⟩

/-! ### Counted runs -/

/-- As long as no job is settled no run is counted. -/
theorem tally_of_unsettled (h : RunUnder ok r n past s) (hs : Step r s e s')
    (hn : e.settledIn? c = none) : (s'.ledger c).tally = (s.ledger c).tally := by
  cases hs.ledger c with
  | settle d job now duration he hc hj _ =>
    obtain rfl : d = c := (category_of_mem_jobs h hj).symm.trans hc
    rw [he, Act.settledIn?, if_pos rfl] at hn
    cases hn
  | still hl => rw [hl]
  | register name hl => rw [hl, Ledger.tally_register]
  | reserve job _ _ _ _ hl => rw [hl, Ledger.tally_reserve]
  | withdraw job _ _ _ _ hl => rw [hl, Ledger.tally_release]
  | begin _ job now _ _ _ hl => rw [hl, Ledger.tally_start]
  | depth _ hl => rw [hl]; rfl

/-- The run of a job that is settled is counted for its target. -/
theorem counts_of_settle (h : RunUnder ok r n past s) (hd : Distinct past)
    (hs : Step r s (.settle c job) s') {m : Nat} (hm : ((s.ledger c).tally name).Counts m) :
    ((s'.ledger c).tally name).Counts (m + if job.target = name then 1 else 0) := by
  obtain ⟨hlive, rfl⟩ := live_of_line h (List.mem_append_left _ hs.mem_jobs)
  obtain ⟨now, duration, hl⟩ := hs.ledger_of_settle
  have hb := books h hd job.category
  have howner : (s.ledger job.category).owner? job.id = some job.target :=
    Ledger.owner?_eq_some hb.sound (hb.jobOf?_iff h hd hlive rfl)
  rw [hl, Ledger.tally_clear hb.sound, howner]
  simp only [Option.some.injEq]
  split
  · exact hm.ended now duration
  · exact hm

/-- A target counts a run for each of its jobs that was settled. -/
theorem counts (h : RunUnder ok r n past s) (hd : Distinct past) (c : Category) (name : String) :
    ((s.ledger c).tally name).Counts
      ((jobs (Act.settledIn? c) past).countP (·.target = name)) := by
  induction h with
  | start =>
    rw [ledger_start]
    exact .empty
  | @step past s s' e h hs _ ih =>
    have hbefore := ih hd.of_cons
    rw [jobs_cons, List.countP_append]
    cases he : e.settledIn? c with
    | none =>
      rw [tally_of_unsettled h hs he]
      exact hbefore
    | some job =>
      obtain rfl := eq_settle he
      rw [Option.toList_some, List.countP_singleton]
      simpa only [decide_eq_true_eq] using counts_of_settle h hd.of_cons hs hbefore

/-- A job that was settled had been admitted. -/
theorem admitted_of_settledIn (h : RunUnder ok r n past s)
    (hj : job ∈ jobs (Act.settledIn? c) past) : job ∈ jobs Act.admitted? past :=
  (mem_admitted h).2
    (.inr (.inl ((acceptedIn_sublist c past).subset (acceptedIn_of_settledIn h hj))))

/-- No more jobs are settled than there were ticks. -/
theorem length_settledIn_le (h : RunUnder ok r n past s) (c : Category) :
    (jobs (Act.settledIn? c) past).length ≤ (jobs Act.drawn? past).length := by
  obtain ⟨lost, horder, -⟩ := (line h c).order
  have hn := acceptedIn_nodup h c
  rw [horder, List.append_assoc, List.append_assoc] at hn
  exact (List.subperm_of_subset hn.of_append_left
    fun job hj => drawn_of_admitted h (admitted_of_settledIn h hj)).length_le

/-- For fewer than 2^64 ticks a target counts its jobs that were settled exactly. -/
theorem counts_exact (h : RunUnder ok r n past s)
    (few : (jobs Act.drawn? past).length < 2 ^ 64) (c : Category) (name : String) :
    ((s.ledger c).tally name).runs.toNat =
      (jobs (Act.settledIn? c) past).countP (·.target = name) :=
  (counts h (distinct_of_few h few) c name).exact
    (Nat.lt_of_le_of_lt (List.countP_le_length.trans (length_settledIn_le h c)) few)

/-! ### Open cycles -/

/-- The jobs that a watchdog was posted for that has not closed: it is still there,
or it could not begin or go on. -/
def unclosed (past : List Act) (s : Engine) : Multiset Job :=
  s.sentries.map Sentry.job + jobs Act.fainted? past

theorem dispatched_eq_unclosed (h : RunUnder ok r n past s) :
    (jobs Act.dispatched? past : Multiset Job) = unclosed past s + jobs Act.closed? past := by
  rw [dispatched_eq h, unclosed, add_assoc]

theorem watched_eq (h : RunUnder ok r n past s) :
    (watched past : Multiset Job) = unclosed past s := by
  have hsum := dispatched_eq_unclosed h
  have hn := Multiset.coe_nodup.2 (dispatched_nodup h)
  rw [hsum, Multiset.nodup_add] at hn
  have hwatched : (watched past).Nodup := (dispatched_nodup h).filter _
  apply ((Multiset.coe_nodup.2 hwatched).ext hn.1).2
  intro job
  rw [Multiset.mem_coe, mem_watched, ← Multiset.mem_coe, hsum, Multiset.mem_add]
  constructor
  · rintro ⟨hopen | hc, hnot⟩
    · exact hopen
    · exact absurd hc hnot
  · intro hopen
    exact ⟨.inl hopen, fun hc => Multiset.disjoint_left.1 hn.2.2 hopen hc⟩

/-- The records in flight are those of the jobs whose watchdog has not closed. -/
theorem inFlight_eq_unclosed (h : RunUnder ok r n past s) (hd : Distinct past) :
    (s.collector.inFlight : Multiset Dispatch) = (unclosed past s).map .ofJob := by
  rw [inFlight_eq h hd, ← Multiset.map_coe, watched_eq h]

/-- Once no tick is under way, a cycle is concluded or left to its watchdog. -/
theorem drawn_eq_concluded (h : RunUnder ok r n past s) (quiet : s.ticks = 0) :
    (jobs Act.drawn? past : Multiset Job) = unclosed past s + jobs Act.concluded? past := by
  rw [drawn_eq_ended h, quiet, Multiset.map_zero, zero_add, ended_eq, dispatched_eq_unclosed h,
    concluded_eq, add_assoc]

/-- Once no tick is under way, the span of a cycle lacks an outcome as long as its
watchdog has not closed, and only then. -/
theorem cycle_of_quiet (h : RunUnder ok r n past s) (quiet : s.ticks = 0)
    (hj : job ∈ jobs Act.drawn? past) :
    job ∈ unclosed past s ∧ CycleSpan s job [] ∨
      job ∉ unclosed past s ∧ ∃ outcome, CycleSpan s job [outcome] := by
  have hsum := drawn_eq_concluded h quiet
  have hn := Multiset.coe_nodup.2 (drawn_nodup h)
  rw [hsum, Multiset.nodup_add] at hn
  have hspan := cycle_outcomes h hj
  by_cases hcon : job ∈ jobs Act.concluded? past
  · right
    refine ⟨fun hopen => Multiset.disjoint_left.1 hn.2.2 hopen hcon, ?_⟩
    obtain ⟨e, he, hce⟩ := mem_jobs.1 hcon
    obtain ⟨⟨_, outcome⟩, hout, rfl⟩ := Option.map_eq_some_iff.1 hce
    exact ⟨outcome, outcomes_eq_singleton h he hout ▸ hspan⟩
  · left
    refine ⟨?_, outcomes_eq_nil hcon ▸ hspan⟩
    rw [← Multiset.mem_coe, hsum, Multiset.mem_add] at hj
    exact hj.resolve_right hcon

/-! ### At rest -/

/-- No tick is under way, and the workers have stopped. -/
structure AtRest (s : Engine) : Prop where
  ticks : s.ticks = 0
  workers : ∀ c, s.worker c = .stopped

namespace AtRest

/-- No ledger points at a job. -/
theorem pointer (hr : s.AtRest) (h : RunUnder ok r n past s) (c : Category) :
    (s.ledger c).running = none :=
  pointer_of_idle h (by rw [hr.workers]; rfl)

/-- Every job that was taken out has been settled. -/
theorem taken (hr : s.AtRest) (h : RunUnder ok r n past s) (c : Category) :
    jobs (Act.takenIn? c) past = jobs (Act.settledIn? c) past := by
  rw [(sect h c).taken, hr.workers]
  exact List.append_nil _

/-- The target of a job that was taken out has a record. -/
theorem exists_item (hr : s.AtRest) (h : RunUnder ok r n past s)
    (hj : job ∈ jobs (Act.takenIn? c) past) :
    job.category = c ∧ ∃ i, (s.ledger c).item? job.target = some i := by
  rw [hr.taken h] at hj
  obtain rfl := category_of_mem_acceptedIn (acceptedIn_of_settledIn h hj)
  have hreg := registered_of_admitted h (admitted_of_settledIn h hj)
  exact ⟨rfl, Option.isSome_iff_exists.1 hreg⟩

/-- A target counts one run for each of its jobs that was taken out. -/
theorem completedRuns (hr : s.AtRest) (h : RunUnder ok r n past s) (hd : Distinct past) {i : Item}
    (hi : (s.ledger c).item? name = some i) :
    i.tally.Counts ((jobs (Act.takenIn? c) past).countP (·.target = name)) := by
  rw [hr.taken h, ← Ledger.tally_of_item? hi]
  exact counts h hd c name

/-- For fewer than 2^64 ticks it counts them exactly. -/
theorem completedRuns_exact (hr : s.AtRest) (h : RunUnder ok r n past s)
    (few : (jobs Act.drawn? past).length < 2 ^ 64) {i : Item}
    (hi : (s.ledger c).item? name = some i) :
    i.completedRuns.toNat = (jobs (Act.takenIn? c) past).countP (·.target = name) := by
  have hruns := counts_exact h few c name
  rwa [Ledger.tally_of_item? hi, ← hr.taken h] at hruns

/-- A job is live still if it went into the queue and did not come out. -/
theorem live_iff (hr : s.AtRest) (h : RunUnder ok r n past s) :
    Live past job ↔ job ∈ jobs Act.accepted? past ∧ ∀ d, job ∉ jobs (Act.takenIn? d) past := by
  have hpledged : job ∉ jobsAt TickStage.pledged s.ticks := by
    rw [hr.ticks]
    exact Multiset.notMem_zero job
  rw [Live, mem_admitted h, mem_released]
  simp only [hr.taken h]
  constructor
  · rintro ⟨hp | hacc | hwith, hrel⟩
    · exact absurd hp hpledged
    · exact ⟨hacc, fun d hd => hrel (.inr ⟨d, hd⟩)⟩
    · exact absurd (.inl hwith) hrel
  · rintro ⟨hacc, hnone⟩
    refine ⟨.inr (.inl hacc), ?_⟩
    rintro (hwith | ⟨d, hd⟩)
    · exact (admitted_parts h).2.2 job hacc hwith
    · exact hnone d hd

/-- A target is left running when the last of its jobs that was admitted went into
the queue and did not come out. -/
theorem running_iff (hr : s.AtRest) (h : RunUnder ok r n past s) (hd : Distinct past) {i : Item}
    (hi : (s.ledger c).item? name = some i) :
    i.running = true ↔ ∃ job, lastAdmitted? past c name = some job ∧
      job ∈ jobs Act.accepted? past ∧ ∀ d, job ∉ jobs (Act.takenIn? d) past := by
  rw [(books h hd c).running_iff hi]
  constructor
  · rintro ⟨job, hlive, rfl, rfl⟩
    exact ⟨job, lastAdmitted?_of_live h hd hlive, (hr.live_iff h).1 hlive⟩
  · rintro ⟨job, hlast, hleft⟩
    obtain ⟨-, hc, ht⟩ := lastAdmitted?_eq_some hlast
    exact ⟨job, (hr.live_iff h).2 hleft, hc, ht⟩

end AtRest

end DiskWatch.Engine
