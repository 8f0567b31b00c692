/-
DiskWatch/Proofs/Serials.lean

Identifiers that are made by many tasks at once.  To make one, a task reads the clock,
takes the next running number and writes both down behind the category and the name of
the target.  Taking a number is one step, whatever the others do; between the steps of
one task those of others may come in any order, and the clock may show anything.

The running number of a draft is the number of those taken before it, as a 64-bit word
(`Issuer.Run.numbered`), and an identifier shows its running number whatever stands in
front of it (`JobId.serial_eq_of_make_eq`).

Main result: the identifiers that come of the first 2^64 running numbers are all
different (`Issuer.ids_never_repeat`).
-/
import DiskWatch.Proofs.Identity
import Mathlib.Data.List.Perm.Subperm

namespace DiskWatch

/-! ### Identifiers in the making -/

/-- What of a reading of the clock, in nanoseconds, goes into an identifier: the reading
itself if a signed 64-bit word can hold it, and zero if not. -/
def stampOf (reading : Int) : Int :=
  if -2 ^ 63 ≤ reading ∧ reading < 2 ^ 63 then reading else 0

/-- How far an identifier has come. -/
inductive DraftStage
  | begun
  | timed (stamp : Int)
  | numbered (stamp : Int) (serial : UInt64)
  | written (stamp : Int) (serial : UInt64)
  deriving DecidableEq, Repr

/-- An identifier in the making. -/
structure Draft where
  category : Category
  target : String
  stage : DraftStage
  deriving DecidableEq, Repr

namespace Draft

/-- The running number, once it has been taken. -/
def serial? (d : Draft) : Option UInt64 :=
  match d.stage with
  | .begun | .timed _ => none
  | .numbered _ n | .written _ n => some n

/-- The identifier, once it has been written. -/
def id? (d : Draft) : Option JobId :=
  match d.stage with
  | .written stamp n => some (.make d.category d.target stamp n)
  | _ => none

/-- An identifier that was written shows the running number of its draft. -/
theorem exists_make {d : Draft} {id : JobId} (h : d.id? = some id) :
    ∃ stamp n, d.serial? = some n ∧ id = .make d.category d.target stamp n := by
  obtain ⟨c, t, stage⟩ := d
  cases stage with
  | written stamp n =>
    cases h
    exact ⟨stamp, n, rfl, rfl⟩
  | _ => cases h

end Draft

/-- The next running number, and the drafts in the order in which they were begun. -/
structure Issuer where
  next : UInt64
  drafts : List Draft

namespace Issuer

/-- Nothing begun yet. -/
def start : Issuer := ⟨0, []⟩

/-- The running number of a draft. -/
def serial? (s : Issuer) (i : Nat) : Option UInt64 := s.drafts[i]?.bind Draft.serial?

/-- The identifier of a draft. -/
def id? (s : Issuer) (i : Nat) : Option JobId := s.drafts[i]?.bind Draft.id?

/-- What a task does for a draft, given by its number. -/
inductive Act
  | begin (category : Category) (target : String)
  | look (draft : Nat) (reading : Int)
  | take (draft : Nat)
  | write (draft : Nat)
  deriving DecidableEq, Repr

/-- The draft for which a running number is taken. -/
def Act.taker? : Act → Option Nat
  | take i => some i
  | _ => none

/-- One step of one task. -/
inductive Step (s : Issuer) : Act → Issuer → Prop
  | begin (c : Category) (t : String) :
      Step s (.begin c t) { s with drafts := s.drafts ++ [⟨c, t, .begun⟩] }
  | look {i : Nat} {c : Category} {t : String} (reading : Int)
      (hd : s.drafts[i]? = some ⟨c, t, .begun⟩) :
      Step s (.look i reading)
        { s with drafts := s.drafts.set i ⟨c, t, .timed (stampOf reading)⟩ }
  | take {i : Nat} {c : Category} {t : String} {stamp : Int}
      (hd : s.drafts[i]? = some ⟨c, t, .timed stamp⟩) :
      Step s (.take i) ⟨s.next + 1, s.drafts.set i ⟨c, t, .numbered stamp s.next⟩⟩
  | write {i : Nat} {c : Category} {t : String} {stamp : Int} {n : UInt64}
      (hd : s.drafts[i]? = some ⟨c, t, .numbered stamp n⟩) :
      Step s (.write i) { s with drafts := s.drafts.set i ⟨c, t, .written stamp n⟩ }

/-- The steps that lead from one state to another, the last one first. -/
inductive Run (s : Issuer) : List Act → Issuer → Prop
  | start : Run s [] s
  | step {past : List Act} {s₁ s₂ : Issuer} {e : Act} (h : Run s past s₁) (hs : Step s₁ e s₂) :
      Run s (e :: past) s₂

variable {s s' : Issuer} {e : Act} {past : List Act} {i j : Nat}

/-- The drafts for which numbers were taken, in that order. -/
def takers (past : List Act) : List Nat := past.reverse.filterMap Act.taker?

theorem takers_cons (e : Act) (past : List Act) :
    takers (e :: past) = takers past ++ e.taker?.toList := by
  rw [takers, List.reverse_cons, List.filterMap_append]
  cases he : e.taker? <;> simp [takers, he]

/-! ### Running numbers -/

theorem serial?_set {d d' : Draft} (hd : s.drafts[i]? = some d) (next : UInt64) (j : Nat) :
    (Issuer.mk next (s.drafts.set i d')).serial? j = if j = i then d'.serial? else s.serial? j := by
  obtain ⟨hi, -⟩ := List.getElem?_eq_some_iff.1 hd
  by_cases hji : j = i
  · subst hji
    simp [serial?, hi]
  · rw [if_neg hji, serial?, List.getElem?_set_ne (Ne.symm hji)]
    rfl

/-- A number is taken by a draft that has none, and that is the next number.  No other
step changes the number of any draft. -/
theorem Step.serials (h : Step s e s') :
    match e.taker? with
    | some i => s.serial? i = none ∧ s'.next = s.next + 1 ∧
        ∀ j, s'.serial? j = if j = i then some s.next else s.serial? j
    | none => s'.next = s.next ∧ ∀ j, s'.serial? j = s.serial? j := by
  cases h with
  | begin c t =>
    refine ⟨rfl, fun j => ?_⟩
    rw [serial?, serial?, List.getElem?_append]
    split
    · rfl
    · next hj =>
      -- the new draft has no number
      rw [List.getElem?_eq_none (Nat.le_of_not_lt hj), List.getElem?_singleton]
      split <;> rfl
  | look reading hd =>
    refine ⟨rfl, fun j => ?_⟩
    rw [serial?_set hd]
    split
    · next hj => rw [hj, serial?, hd]; rfl
    · rfl
  | take hd =>
    refine ⟨by rw [serial?, hd]; rfl, rfl, fun j => ?_⟩
    rw [serial?_set hd]
    rfl
  | write hd =>
    refine ⟨rfl, fun j => ?_⟩
    rw [serial?_set hd]
    split
    · next hj => rw [hj, serial?, hd]; rfl
    · rfl

theorem getElem?_concat_eq_some_iff {α : Type} {xs : List α} {a b : α} {m : Nat} :
    (xs ++ [a])[m]? = some b ↔ xs[m]? = some b ∨ m = xs.length ∧ a = b := by
  rcases Nat.lt_trichotomy m xs.length with hm | rfl | hm
  · rw [List.getElem?_append_left hm]
    exact ⟨.inl, fun h => h.resolve_right fun h => absurd h.1 (Nat.ne_of_lt hm)⟩
  · simp
  · rw [List.getElem?_eq_none (by simp; omega), List.getElem?_eq_none (Nat.le_of_lt hm)]
    simp [Nat.ne_of_gt hm]

/-- The next number counts those taken, for different drafts, and each draft has the number
of those that were taken before its own. -/
structure Numbered (order : List Nat) (s : Issuer) : Prop where
  next : s.next = .ofNat order.length
  nodup : order.Nodup
  serial (j : Nat) (n : UInt64) :
    s.serial? j = some n ↔ ∃ m, order[m]? = some j ∧ n = .ofNat m

namespace Numbered

variable {order : List Nat}

theorem start : Numbered [] .start :=
  ⟨rfl, List.nodup_nil, fun j n => by simp [serial?, Issuer.start]⟩

theorem mem_iff (h : Numbered order s) : i ∈ order ↔ ∃ n, s.serial? i = some n := by
  constructor
  · intro hi
    obtain ⟨m, hm⟩ := List.mem_iff_getElem?.1 hi
    exact ⟨_, (h.serial i _).2 ⟨m, hm, rfl⟩⟩
  · rintro ⟨n, hn⟩
    obtain ⟨m, hm, -⟩ := (h.serial i n).1 hn
    exact List.mem_of_getElem? hm

theorem same (h : Numbered order s) (hnext : s'.next = s.next)
    (hserial : ∀ j, s'.serial? j = s.serial? j) : Numbered order s' := by
  refine ⟨hnext.trans h.next, h.nodup, fun j n => ?_⟩
  rw [hserial]
  exact h.serial j n

theorem taken (h : Numbered order s) (hi : s.serial? i = none) (hnext : s'.next = s.next + 1)
    (hserial : ∀ j, s'.serial? j = if j = i then some s.next else s.serial? j) :
    Numbered (order ++ [i]) s' := by
  have hfresh : i ∉ order := by
    rw [h.mem_iff]
    rintro ⟨n, hn⟩
    rw [hi] at hn
    cases hn
  refine ⟨?_, List.concat_eq_append ▸ h.nodup.concat hfresh, fun j n => ?_⟩
  · rw [hnext, h.next, List.length_append, List.length_singleton]
    simp
  · rw [hserial]
    simp only [getElem?_concat_eq_some_iff]
    by_cases hj : j = i
    · subst hj
      rw [if_pos rfl, Option.some.injEq, h.next]
      constructor
      · rintro rfl
        exact ⟨_, .inr ⟨rfl, rfl⟩, rfl⟩
      · rintro ⟨m, hm | ⟨rfl, -⟩, rfl⟩
        · exact absurd (List.mem_of_getElem? hm) hfresh
        · rfl
    · rw [if_neg hj, h.serial]
      simp [Ne.symm hj]

theorem step (h : Numbered (takers past) s) (hs : Step s e s') :
    Numbered (takers (e :: past)) s' := by
  have hstep := hs.serials
  rw [takers_cons]
  cases he : e.taker? with
  | none =>
    rw [he] at hstep
    rw [Option.toList_none, List.append_nil]
    exact h.same hstep.1 hstep.2
  | some i =>
    rw [he] at hstep
    exact h.taken hstep.1 hstep.2.1 hstep.2.2

end Numbered

theorem Run.numbered (h : Run .start past s) : Numbered (takers past) s := by
  induction h with
  | start => exact .start
  | step _ hs ih => exact ih.step hs

/-! ### Identifiers and their numbers -/

/-- A draft with an identifier has a running number, which the identifier shows. -/
theorem exists_make {id : JobId} (h : s.id? i = some id) :
    ∃ c t stamp n, s.serial? i = some n ∧ id = .make c t stamp n := by
  obtain ⟨d, hd, hid⟩ := Option.bind_eq_some_iff.1 h
  obtain ⟨stamp, n, hn, rfl⟩ := d.exists_make hid
  exact ⟨_, _, stamp, n, by rw [serial?, hd]; exact hn, rfl⟩

/-- Identifiers of drafts whose numbers were taken at different places differ, unless 2^64
numbers or a multiple of that lie between them. -/
theorem text_ne {m n : Nat} (h : Run .start past s) (hi : (takers past)[m]? = some i)
    (hj : (takers past)[n]? = some j) (hmn : m % 2 ^ 64 ≠ n % 2 ^ 64) {id id' : JobId}
    (hid : s.id? i = some id) (hid' : s.id? j = some id') : id.text ≠ id'.text := by
  obtain ⟨c, t, stamp, x, hx, rfl⟩ := exists_make hid
  obtain ⟨c', t', stamp', y, hy, rfl⟩ := exists_make hid'
  rw [(h.numbered.serial i _).2 ⟨m, hi, rfl⟩, Option.some.injEq] at hx
  rw [(h.numbered.serial j _).2 ⟨n, hj, rfl⟩, Option.some.injEq] at hy
  intro htext
  have hxy : x = y := JobId.serial_eq_of_make_eq (congrArg JobId.mk htext)
  rw [← hx, ← hy, ← UInt64.toNat_inj, UInt64.toNat_ofNat', UInt64.toNat_ofNat'] at hxy
  exact hmn hxy

theorem mem_takers_of_id? (h : Run .start past s) {id : JobId} (hid : s.id? i = some id) :
    i ∈ takers past := by
  obtain ⟨c, t, stamp, n, hn, -⟩ := exists_make hid
  exact h.numbered.mem_iff.2 ⟨n, hn⟩

/-- No more numbers are taken than drafts are begun. -/
theorem length_takers_le (h : Run .start past s) : (takers past).length ≤ s.drafts.length := by
  have hsub : takers past ⊆ List.range s.drafts.length := by
    intro i hi
    obtain ⟨n, hn⟩ := h.numbered.mem_iff.1 hi
    obtain ⟨d, hd, -⟩ := Option.bind_eq_some_iff.1 hn
    exact List.mem_range.2 (List.getElem?_eq_some_iff.1 hd).1
  have hle := (List.subperm_of_subset h.numbered.nodup hsub).length_le
  rwa [List.length_range] at hle

/-! ### The draws of the program -/

section Latest

variable {ds : List Draft} {next : UInt64} {c : Category} {t : String} {stamp : Int}

theorem set_latest (ds : List Draft) (old new : Draft) :
    (ds ++ [old]).set ds.length new = ds ++ [new] := by
  rw [List.set_append_right _ _ (Nat.le_refl _), Nat.sub_self]
  rfl

theorem look_latest (reading : Int) :
    Step ⟨next, ds ++ [⟨c, t, .begun⟩]⟩ (.look ds.length reading)
      ⟨next, ds ++ [⟨c, t, .timed (stampOf reading)⟩]⟩ := by
  have hstep := @Step.look ⟨next, ds ++ [⟨c, t, .begun⟩]⟩ _ c t reading
    List.getElem?_concat_length
  rwa [set_latest] at hstep

theorem take_latest : Step ⟨next, ds ++ [⟨c, t, .timed stamp⟩]⟩ (.take ds.length)
    ⟨next + 1, ds ++ [⟨c, t, .numbered stamp next⟩]⟩ := by
  have hstep := @Step.take ⟨next, ds ++ [⟨c, t, .timed stamp⟩]⟩ _ c t stamp
    List.getElem?_concat_length
  rwa [set_latest] at hstep

theorem write_latest {n : UInt64} : Step ⟨next, ds ++ [⟨c, t, .numbered stamp n⟩]⟩
    (.write ds.length) ⟨next, ds ++ [⟨c, t, .written stamp n⟩]⟩ := by
  have hstep := @Step.write ⟨next, ds ++ [⟨c, t, .numbered stamp n⟩]⟩ _ c t stamp n
    List.getElem?_concat_length
  rwa [set_latest] at hstep

end Latest

/-- The draw of a job makes an identifier without a break. -/
theorem run_draw (k : Collector) (t : Target) (reading : Int) (hs : s.next = k.drawn) :
    ∃ s', Run s [.write s.drafts.length, .take s.drafts.length, .look s.drafts.length reading,
        .begin t.category t.name] s' ∧
      s'.next = (k.draw t (stampOf reading)).2.drawn ∧
      s'.id? s.drafts.length = some (k.draw t (stampOf reading)).1.id := by
  have hbegin : Run s [.begin t.category t.name]
      ⟨s.next, s.drafts ++ [⟨t.category, t.name, .begun⟩]⟩ := Run.start.step (.begin _ _)
  refine ⟨_, ((hbegin.step (look_latest reading)).step take_latest).step write_latest,
    congrArg (· + 1) hs, ?_⟩
  rw [id?, List.getElem?_concat_length, hs]
  rfl

/-! ### The first 2^64 identifiers -/

/-- Let any tasks make any identifiers, with their steps in any order.  The identifiers
that come of the first 2^64 running numbers are all different as texts, and so are all
identifiers if no more than 2^64 were begun: whatever their categories, the names of their
targets and the readings of the clock are, and however their steps lie among each other.
Only what has taken a number becomes an identifier.

A job of the program is drawn by such steps, without a break. -/
theorem ids_never_repeat (h : Run .start past s) :
    ((takers past).take (2 ^ 64)).Pairwise (fun i j => ∀ id id',
      s.id? i = some id → s.id? j = some id' → id.text ≠ id'.text) ∧
    (s.drafts.length ≤ 2 ^ 64 → ∀ i j, i ≠ j → ∀ id id',
      s.id? i = some id → s.id? j = some id' → id.text ≠ id'.text) ∧
    (∀ i id, s.id? i = some id → i ∈ takers past) ∧
    ∀ (k : Collector) (t : Target) (reading : Int), s.next = k.drawn →
      ∃ s', Run s [.write s.drafts.length, .take s.drafts.length, .look s.drafts.length reading,
          .begin t.category t.name] s' ∧
        s'.next = (k.draw t (stampOf reading)).2.drawn ∧
        s'.id? s.drafts.length = some (k.draw t (stampOf reading)).1.id := by
  refine ⟨?_, fun hfew i j hij id id' hid hid' => ?_, fun i id => mem_takers_of_id? h,
    fun k t reading => run_draw k t reading⟩
  · rw [List.pairwise_iff_getElem]
    intro m n hm hn hmn id id'
    rw [List.length_take] at hm hn
    rw [List.getElem_take, List.getElem_take]
    apply text_ne h (List.getElem?_eq_getElem _) (List.getElem?_eq_getElem _)
    omega
  · obtain ⟨m, hm⟩ := List.mem_iff_getElem?.1 (mem_takers_of_id? h hid)
    obtain ⟨n, hn⟩ := List.mem_iff_getElem?.1 (mem_takers_of_id? h hid')
    have hlen := length_takers_le h
    have hmlt := (List.getElem?_eq_some_iff.1 hm).1
    have hnlt := (List.getElem?_eq_some_iff.1 hn).1
    refine text_ne h hm hn (fun heq => hij ?_) hid hid'
    have hmn : m = n := by omega
    rw [hmn, hn] at hm
    exact (Option.some.inj hm).symm

/-- Three tasks take turns.  But for their running numbers, two identifiers would be the
same; the third has no name, and a reading that no word can hold. -/
theorem ids_never_repeat_of_lookalikes : ∃ past s, Run .start past s ∧
    s.drafts.length ≤ 2 ^ 64 ∧
    s.id? 0 = some ⟨"filesystem-a--1-1"⟩ ∧ s.id? 1 = some ⟨"filesystem-a--1-0"⟩ ∧
    s.id? 2 = some ⟨"directory--0-2"⟩ ∧
    (⟨"filesystem-a--1-1"⟩ : JobId).text ≠ (⟨"filesystem-a--1-0"⟩ : JobId).text := by
  have hbegun : Run .start _ _ := ((Run.start.step (.begin .filesystem "a-")).step
    (.begin .filesystem "a")).step (.begin .directory "")
  have htimed := ((hbegun.step (.look (i := 0) 1 rfl)).step (.look (i := 1) (-1) rfl)).step
    (.look (i := 2) (2 ^ 63) rfl)
  have hnumbered := ((htimed.step (.take (i := 1) rfl)).step (.take (i := 0) rfl)).step
    (.take (i := 2) rfl)
  have hwritten : Run .start _ ⟨3, [⟨.filesystem, "a-", .written 1 1⟩,
      ⟨.filesystem, "a", .written (-1) 0⟩, ⟨.directory, "", .written 0 2⟩]⟩ :=
    ((hnumbered.step (.write (i := 0) rfl)).step (.write (i := 1) rfl)).step
      (.write (i := 2) rfl)
  obtain ⟨-, hdiffer, -⟩ := ids_never_repeat hwritten
  refine ⟨_, _, hwritten, by decide, by decide +kernel, by decide +kernel, by decide +kernel, ?_⟩
  exact hdiffer (by decide) 0 1 (by decide) _ _ (by decide +kernel) (by decide +kernel)

end Issuer

end DiskWatch
