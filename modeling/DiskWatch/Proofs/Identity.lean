/-
DiskWatch/Proofs/Identity.lean

No two jobs are taken for one another.  The identifier of a job ends in its
running number behind the last hyphen, and what stands before that (a category,
the name of a target, a reading of the clock) cannot hide it.  Running numbers
are 64-bit words, so identifiers differ as long as not more than 2^64 of them
have been drawn (`ids_nodup`).

The cycle of a job is a span of its own, and spans are never counted over again;
jobs therefore differ as values in a run of any length (`drawn_nodup`).
-/
import DiskWatch.Proofs.Passage
import DiskWatch.Proofs.Spans
import Mathlib.Data.List.Nodup

namespace DiskWatch

/-! ### Reading the running number back -/

theorem Text.decimal_injective : Function.Injective Text.decimal := by
  intro m n h
  have hm := readUpTo_decimal (Nat.le_max_left m n)
  rw [h, readUpTo_decimal (Nat.le_max_right m n)] at hm
  exact (Except.ok.inj hm).symm

theorem Text.hyphen_notMem_decimal (n : Nat) : '-' ∉ Text.decimal n := by
  intro h
  have := decimal_digits n '-' h
  exact absurd this (by decide)

/-- What stands behind the last hyphen does not depend on what stands before it. -/
theorem eq_of_append_hyphen {xs ys ds es : List Char} (hd : '-' ∉ ds) (he : '-' ∉ es)
    (h : xs ++ '-' :: ds = ys ++ '-' :: es) : ds = es := by
  -- if one text before the hyphen is longer, the hyphen of the other one lies within digits
  obtain ⟨as, -, has⟩ | ⟨as, -, has⟩ := List.append_eq_append_iff.1 h
  · cases as with
    | nil => exact (List.cons.inj has).2
    | cons a as =>
      have hmem : '-' ∈ as ++ '-' :: es := List.mem_append_right as List.mem_cons_self
      exact absurd ((List.cons.inj has).2 ▸ hmem) hd
  · cases as with
    | nil => exact (List.cons.inj has).2.symm
    | cons a as =>
      have hmem : '-' ∈ as ++ '-' :: ds := List.mem_append_right as List.mem_cons_self
      exact absurd ((List.cons.inj has).2 ▸ hmem) he

theorem JobId.toList_make (c : Category) (t : String) (k : Int) (n : UInt64) :
    ∃ before, (make c t k n).text.toList = before ++ '-' :: Text.decimal n.toNat :=
  ⟨(c.name ++ "-" ++ t ++ "-" ++ Text.showInt k).toList, by simp [make, Text.showNat]⟩

/-- An identifier determines its running number. -/
theorem JobId.serial_eq_of_make_eq {c c' : Category} {t t' : String} {k k' : Int} {m n : UInt64}
    (h : make c t k m = make c' t' k' n) : m = n := by
  obtain ⟨before, hm⟩ := toList_make c t k m
  obtain ⟨before', hn⟩ := toList_make c' t' k' n
  rw [h, hn] at hm
  have := eq_of_append_hyphen (Text.hyphen_notMem_decimal _) (Text.hyphen_notMem_decimal _) hm
  exact UInt64.toNat_inj.1 (Text.decimal_injective this).symm

/-! ### The draw of a job -/

namespace Collector

variable {k k' : Collector} {t : Target} {clock : Int} {job : Job}

theorem draw_id (h : k.draw t clock = (job, k')) :
    job.id = .make t.category t.name clock k.drawn ∧ k'.drawn = k.drawn + 1 := by
  cases h
  exact ⟨rfl, rfl⟩

theorem draw_cycle (h : k.draw t clock = (job, k')) :
    job.cycle = some k.telemetry.spans.length ∧
      k'.telemetry.spans = k.telemetry.spans ++
        [⟨none, .cycle job.category job.target job.id, []⟩] := by
  cases h
  exact ⟨rfl, rfl⟩

end Collector

namespace Engine

variable {ok : Engine → Act → Prop} {r : Routine} {n : Nat} {past : List Act} {s s' : Engine}
  {e : Act}

/-- Only a draw takes a running number. -/
theorem Step.drawn_of_none (h : Step r s e s') (he : e.drawn? = none) :
    s'.collector.drawn = s.collector.drawn := by
  cases h with
  | draw hk => cases he
  | reserve _ hk | enqueue _ hk | idle _ hk | take _ hk | begin _ hk | finish _ hk _ =>
    exact (congrArg (fun p => p.2.drawn) hk).symm
  | _ => rfl

/-- A step that draws a job is a draw on the collector. -/
theorem Step.draw_of_some (h : Step r s e s') {job : Job} (he : e.drawn? = some job) :
    ∃ t clock, s.collector.draw t clock = (job, s'.collector) := by
  cases h with
  | draw hk => cases he; exact ⟨_, _, hk⟩
  | _ => cases he

/-! ### Running numbers -/

theorem drawn_eq (h : RunUnder ok r n past s) :
    s.collector.drawn = UInt64.ofNat (jobs Act.drawn? past).length := by
  induction h with
  | start => rfl
  | @step past s s' e _ hs _ ih =>
    rw [jobs_cons]
    cases he : e.drawn? with
    | none => simpa [hs.drawn_of_none he] using ih
    | some job =>
      obtain ⟨t, clock, hk⟩ := hs.draw_of_some he
      rw [(Collector.draw_id hk).2, ih]
      simp

/-- The identifier of a drawn job ends in a number below the number of draws. -/
theorem exists_serial (h : RunUnder ok r n past s) {job : Job}
    (hj : job ∈ jobs Act.drawn? past) :
    ∃ m < (jobs Act.drawn? past).length, ∃ c t k, job.id = .make c t k (UInt64.ofNat m) := by
  induction h with
  | start => cases hj
  | @step past s s' e h hs _ ih =>
    rw [jobs_cons] at hj ⊢
    rcases List.mem_append.1 hj with hj | hj
    · obtain ⟨m, hm, hid⟩ := ih hj
      exact ⟨m, by rw [List.length_append]; omega, hid⟩
    · have he : e.drawn? = some job := by simpa using hj
      obtain ⟨t, clock, hk⟩ := hs.draw_of_some he
      refine ⟨(jobs Act.drawn? past).length, by simp [he], t.category, t.name, clock, ?_⟩
      rw [(Collector.draw_id hk).1, drawn_eq h]

/-- The identifiers of the drawn jobs differ, as long as the running numbers do. -/
theorem ids_nodup (h : RunUnder ok r n past s) (few : (jobs Act.drawn? past).length ≤ 2 ^ 64) :
    ((jobs Act.drawn? past).map Job.id).Nodup := by
  induction h with
  | start => exact List.nodup_nil
  | @step past s s' e h hs _ ih =>
    rw [jobs_cons] at few ⊢
    rw [List.length_append] at few
    cases he : e.drawn? with
    | none => simpa using ih (by omega)
    | some job =>
      rw [he, Option.toList_some, List.length_singleton] at few
      obtain ⟨t, clock, hk⟩ := hs.draw_of_some he
      rw [Option.toList_some, List.map_append, List.map_singleton, ← List.concat_eq_append]
      refine List.Nodup.concat ?_ (ih (by omega))
      intro hmem
      -- an earlier job with this identifier would have had the same running number
      obtain ⟨other, ho, hid⟩ := List.mem_map.1 hmem
      obtain ⟨m, hm, c, u, k, hm'⟩ := exists_serial h ho
      rw [hm', (Collector.draw_id hk).1, drawn_eq h] at hid
      have := congrArg UInt64.toNat (JobId.serial_eq_of_make_eq hid)
      have hlt : m < UInt64.size := by show m < 2 ^ 64; omega
      have hlt' : (jobs Act.drawn? past).length < UInt64.size := by show _ < 2 ^ 64; omega
      rw [UInt64.toNat_ofNat_of_lt' hlt, UInt64.toNat_ofNat_of_lt' hlt'] at this
      omega

/-! ### Cycles -/

theorem getElem?_of_prefix {α : Type} {xs ys : List α} (h : xs <+: ys) {i : Nat} {a : α}
    (hi : xs[i]? = some a) : ys[i]? = some a := by
  obtain ⟨zs, rfl⟩ := h
  rw [List.getElem?_append_left (List.getElem?_eq_some_iff.1 hi).1, hi]

/-- The cycle of a drawn job is a span of its own kind. -/
theorem exists_cycle (h : RunUnder ok r n past s) {job : Job} (hj : job ∈ jobs Act.drawn? past) :
    ∃ i, job.cycle = some i ∧
      (s.spans.map Span.kind)[i]? = some (.cycle job.category job.target job.id) := by
  induction h with
  | start => cases hj
  | @step past s s' e _ hs _ ih =>
    rw [jobs_cons] at hj
    rcases List.mem_append.1 hj with hj | hj
    · obtain ⟨i, hi, hk⟩ := ih hj
      exact ⟨i, hi, getElem?_of_prefix hs.kinds hk⟩
    · obtain ⟨t, clock, hk⟩ := hs.draw_of_some (by simpa using hj)
      obtain ⟨hc, hsp⟩ := Collector.draw_cycle hk
      refine ⟨_, hc, ?_⟩
      rw [Engine.spans, hsp]
      simp

/-- Different draws give different cycles, in a run of any length. -/
theorem cycles_nodup (h : RunUnder ok r n past s) :
    ((jobs Act.drawn? past).map Job.cycle).Nodup := by
  induction h with
  | start => exact List.nodup_nil
  | @step past s s' e h hs _ ih =>
    rw [jobs_cons]
    cases he : e.drawn? with
    | none => simpa using ih
    | some job =>
      obtain ⟨t, clock, hk⟩ := hs.draw_of_some he
      rw [Option.toList_some, List.map_append, List.map_singleton, ← List.concat_eq_append]
      refine List.Nodup.concat ?_ ih
      intro hmem
      -- an earlier cycle is one of the spans behind which the new one was opened
      obtain ⟨other, ho, hc⟩ := List.mem_map.1 hmem
      obtain ⟨i, hi, hkind⟩ := exists_cycle h ho
      rw [hi, (Collector.draw_cycle hk).1, Option.some.injEq] at hc
      have := (List.getElem?_eq_some_iff.1 hkind).1
      rw [List.length_map, hc, Engine.spans] at this
      omega

/-- No job is drawn twice, in a run of any length. -/
theorem drawn_nodup (h : RunUnder ok r n past s) : (jobs Act.drawn? past).Nodup :=
  List.Nodup.of_map _ (cycles_nodup h)

end Engine

end DiskWatch
