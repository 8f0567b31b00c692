/-
DiskWatch/Proofs/Bookkeeping.lean

The bookkeeping under any use.  Whoever calls the operations of the ledgers, in
whatever order and with whatever arguments, finds records that can be trusted
(`bookkeeping`), as long as no job is used for two targets of one category.

The invariant (`Kept`) is about one ledger and the operations made so far, and
every operation keeps it (`Kept.step`).  Of the operations only clearing chooses
a record by the job it names.  The mark of a target is a job that was used for
it, so at most one record can be found, and it does not matter in which order
the records are searched.
-/
import DiskWatch.Proofs.Records

namespace DiskWatch

/-! ### Any number of operations -/

/-- One call of an operation on the bookkeeping, with its arguments and the time
at which it is made. -/
inductive Operation
  | register (c : Category) (name : String)
  | reserve (c : Category) (name : String) (id : JobId)
  | release (c : Category) (name : String) (id : JobId)
  | start (job : Job) (now : Instant)
  | clear (c : Category) (id : JobId) (now : Instant) (duration : Duration)
  | setDepth (c : Category) (depth : Nat)
  deriving DecidableEq, Repr

namespace Operation

/-- The category whose ledger is changed. -/
def category : Operation → Category
  | register c _ => c
  | reserve c _ _ => c
  | release c _ _ => c
  | start job _ => job.category
  | clear c _ _ _ => c
  | setDepth c _ => c

/-- What becomes of that ledger. -/
def change (l : Ledger) : Operation → Ledger
  | register c name => l.register c name
  | reserve _ name id => (l.reserve name id).2
  | release _ name id => (l.release name id).2
  | start job now => (l.start job now).2
  | clear _ id now duration => (l.clear id now duration).2
  | setDepth _ depth => l.setDepth depth

/-- What becomes of the bookkeeping. -/
def apply (op : Operation) (p : PerCategory Ledger) : PerCategory Ledger :=
  p.update op.category op.change

/-- The bookkeeping after some operations, the latest first. -/
def after : List Operation → PerCategory Ledger
  | [] => .both .empty
  | op :: past => op.apply (after past)

/-- The job that an operation writes into a record, with its target.  Releasing
and clearing write no job into any record, whatever their arguments. -/
def use? : Operation → Option (Category × String × JobId)
  | reserve c name id => some (c, name, id)
  | start job _ => some (job.category, job.target, job.id)
  | _ => none

/-- No job is used for two targets of one category. -/
def OneTargetEach (past : List Operation) : Prop :=
  ∀ a ∈ past.filterMap use?, ∀ b ∈ past.filterMap use?,
    a.1 = b.1 → a.2.2 = b.2.2 → a.2.1 = b.2.1

instance (past : List Operation) : Decidable (OneTargetEach past) :=
  inferInstanceAs (Decidable (∀ a ∈ past.filterMap use?, ∀ b ∈ past.filterMap use?,
    a.1 = b.1 → a.2.2 = b.2.2 → a.2.1 = b.2.1))

/-- The target whose run an operation ends, with the ledger as it finds it. -/
def ends? (l : Ledger) : Operation → Option String
  | clear _ id _ _ => l.owner? id
  | _ => none

/-- How often a job was cleared whose owner was this target. -/
def clearings (c : Category) (name : String) : List Operation → Nat
  | [] => 0
  | op :: past => clearings c name past +
      if op.category = c ∧ op.ends? ((after past).get c) = some name then 1 else 0

/-- An operation that names a job or a target that is not recorded where the
operation looks for it. -/
def Unrecorded (p : PerCategory Ledger) : Operation → Prop
  | release c name id => (p.get c).holds name id = false
  | start job _ => (p.get job.category).item? job.target = none
  | clear c id _ _ => (p.get c).carries id = false
  | _ => False

variable {past : List Operation} {p : PerCategory Ledger} {op : Operation} {c : Category}
  {l : Ledger} {name other : String} {id : JobId}

theorem get_apply (op : Operation) (p : PerCategory Ledger) (c : Category) :
    (op.apply p).get c = if op.category = c then op.change (p.get c) else p.get c := by
  by_cases hc : op.category = c
  · subst hc
    rw [apply, PerCategory.get_update, if_pos rfl]
  · rw [apply, PerCategory.get_update_of_ne _ _ (Ne.symm hc), if_neg hc]

/-- An operation changes the ledger of its category alone, and that one not at
all where what it names is not recorded. -/
theorem apply_of_unrecorded (op : Operation) (h : op.Unrecorded p) : op.apply p = p := by
  have hsame : op.change (p.get op.category) = p.get op.category := by
    cases op with
    | release c name id =>
      have hh : (p.get c).holds name id = false := h
      simp only [change, category, Ledger.release, hh, Bool.false_eq_true, if_false]
    | start job now =>
      have hi : (p.get job.category).item? job.target = none := h
      simp only [change, category, Ledger.start, hi, Option.isSome_none, Bool.false_eq_true, if_false]
    | clear c id now d => exact congrArg Prod.snd (Ledger.clear_of_not_carries h now d)
    | _ => exact absurd h id
  rw [apply, PerCategory.update_eq_set, hsame, PerCategory.set_get]

/-! ### Counting -/

/-- A run is counted in the record of its target when it ends, and nothing else
is counted. -/
theorem counts_change (h : l.Sound) (op : Operation) {n : Nat} (hn : (l.tally name).Counts n) :
    ((op.change l).tally name).Counts (n + if op.ends? l = some name then 1 else 0) := by
  cases op with
  | register c new => exact congrFun (l.tally_register c new) name ▸ hn
  | reserve c new id => exact congrFun (l.tally_reserve new id) name ▸ hn
  | release c old id => exact congrFun (l.tally_release old id) name ▸ hn
  | start job now => exact congrFun (l.tally_start job now) name ▸ hn
  | clear c id now d =>
    show ((l.clear id now d).2.tally name).Counts (n + if l.owner? id = some name then 1 else 0)
    rw [Ledger.tally_clear h]
    split
    · exact hn.ended now d
    · exact hn
  | setDepth c depth => exact hn

end Operation

/-! ### The invariant -/

/-- What is true of a record of category `c` after some operations. -/
structure Item.Kept (past : List Operation) (c : Category) (i : Item) : Prop where
  category : i.category = c
  flag : i.running = i.job.isSome
  used : ∀ id, i.job = some id → (c, i.name, id) ∈ past.filterMap Operation.use?

/-- What is true of the ledger of category `c` after some operations. -/
structure Ledger.Kept (past : List Operation) (c : Category) (l : Ledger) : Prop where
  names : (l.items.map Item.name).Nodup
  records : ∀ i ∈ l.items, i.Kept past c
  pointer : ∀ r, l.running = some r → r.category = c ∧ (l.item? r.target).isSome
  counts : ∀ name, (l.tally name).Counts (Operation.clearings c name past)

variable {past : List Operation} {op : Operation} {c : Category} {l : Ledger} {i : Item}
  {f : Item → Item} {name other : String} {id : JobId}

namespace Item

theorem Kept.new (past : List Operation) (c : Category) (name : String) :
    (Item.new c name).Kept past c :=
  ⟨rfl, rfl, nofun⟩

theorem Kept.cons (h : i.Kept past c) (op : Operation) : i.Kept (op :: past) c :=
  { h with used := fun id hj =>
      ((List.sublist_cons_self op past).filterMap Operation.use?).subset (h.used id hj) }

theorem Kept.mark (h : i.Kept past c) (hu : (c, i.name, id) ∈ past.filterMap Operation.use?) :
    (i.mark id).Kept past c :=
  { h with
    flag := rfl
    used := fun _ hj => Option.some.inj hj ▸ hu }

theorem Kept.unmark (h : i.Kept past c) : i.unmark.Kept past c :=
  { h with
    flag := rfl
    used := nofun }

theorem Kept.begin (h : i.Kept past c) (hu : (c, i.name, id) ∈ past.filterMap Operation.use?)
    (now : Instant) : (i.begin id now).Kept past c :=
  { h.mark hu with }

theorem Kept.finish (h : i.Kept past c) (now : Instant) (d : Duration) :
    (i.finish now d).Kept past c :=
  { h.unmark with }

end Item

namespace Ledger

theorem Kept.empty (c : Category) : Kept [] c empty :=
  ⟨List.nodup_nil, nofun, nofun, fun _ => .empty⟩

theorem Kept.sound (h : Kept past c l) : l.Sound :=
  ⟨h.names, fun i hi => (h.records i hi).flag⟩

/-- A target is marked only with a job that was used for it. -/
theorem Kept.used (h : Kept past c l) (hj : l.jobOf? name = some id) :
    (c, name, id) ∈ past.filterMap Operation.use? := by
  obtain ⟨i, hi, hfor⟩ := Option.bind_eq_some_iff.1 hj
  obtain ⟨hmem, rfl⟩ := mem_of_item? hi
  exact (h.records i hmem).used id hfor

/-- No two targets are marked with the same job. -/
theorem Kept.owner_unique (h : Kept past c l) (hu : Operation.OneTargetEach past)
    (hn : l.jobOf? name = some id) (ho : l.jobOf? other = some id) : name = other :=
  hu _ (h.used hn) _ (h.used ho) rfl rfl

/-- A change of the records of one target keeps all of them. -/
theorem Kept.changeItem (h : ∀ i ∈ l.items, i.Kept past c)
    (hf : ∀ i : Item, i.name = name → i.Kept past c → (f i).Kept past c) :
    ∀ i ∈ (l.changeItem name f).items, i.Kept past c := by
  apply forall_changeFirst _ h
  intro i hi hname
  exact hf i (beq_iff_eq.1 hname) (h i hi)

/-- An operation on another category is none on this ledger. -/
theorem Kept.away (h : Kept past c l) (hc : op.category ≠ c) : Kept (op :: past) c l where
  names := h.names
  records := fun i hi => (h.records i hi).cons op
  pointer := h.pointer
  counts := fun name => by
    rw [Operation.clearings, if_neg fun hop => hc hop.1]
    exact h.counts name

theorem Kept.records_change (h : Kept past c l) (hc : op.category = c) :
    ∀ i ∈ (op.change l).items, i.Kept (op :: past) c := by
  have hsame : ∀ i ∈ l.items, i.Kept (op :: past) c := fun i hi => (h.records i hi).cons op
  cases op with
  | register d new =>
    obtain rfl : d = c := hc
    show ∀ i ∈ (l.register d new).items, _
    rcases register_eq l d new with he | ⟨-, he⟩
    · rw [he]
      exact hsame
    · rw [he]
      intro i hi
      rcases List.mem_append.1 hi with hi | hi
      · exact hsame i hi
      · rw [List.mem_singleton.1 hi]
        exact .new _ d new
  | reserve d new id =>
    obtain rfl : d = c := hc
    show ∀ i ∈ (l.reserve new id).2.items, _
    rcases reserve_eq h.sound new id with ⟨-, he⟩ | ⟨-, he⟩ | ⟨-, -, he⟩
    · rw [he]
      exact hsame
    · rw [he]
      exact hsame
    · rw [he]
      apply Kept.changeItem hsame
      rintro i rfl hi
      exact hi.mark List.mem_cons_self
  | release d old id =>
    show ∀ i ∈ (l.release old id).2.items, _
    unfold Ledger.release
    split
    · exact Kept.changeItem hsame fun i _ hi => hi.unmark
    · exact hsame
  | start job now =>
    obtain rfl : job.category = c := hc
    show ∀ i ∈ (l.start job now).2.items, _
    unfold Ledger.start
    split
    · apply Kept.changeItem hsame
      rintro i hname hi
      refine hi.begin ?_ now
      rw [hname]
      exact List.mem_cons_self
    · exact hsame
  | clear d id now duration =>
    apply forall_changeFirst _ hsame
    intro i hi _
    exact (hsame i hi).finish now duration
  | setDepth d depth => exact hsame

/-- No operation strikes a target out. -/
theorem registered_change (op : Operation) (h : (l.item? name).isSome) :
    ((op.change l).item? name).isSome := by
  cases op with
  | register c new => exact registered_register c new h
  | reserve c new id => exact (registered_congr (names_reserve l new id)).trans h
  | release c old id => exact (registered_congr (names_release l old id)).trans h
  | start job now => exact (registered_congr (names_start l job now)).trans h
  | clear c id now d => exact (registered_congr (names_clear l id now d)).trans h
  | setDepth c depth => exact h

/-- The worker is shown at a job it was shown at before, or at one that it starts
and whose target is registered. -/
theorem running_change {r : RunningJob} (op : Operation) (hr : (op.change l).running = some r) :
    l.running = some r ∨ ∃ job now, op = .start job now ∧ r = .ofJob job now ∧
      (l.item? job.target).isSome := by
  cases op with
  | register c new => exact .inl (running_register l c new ▸ hr)
  | reserve c new id => exact .inl (running_reserve l new id ▸ hr)
  | release c old id => exact .inl (running_release l old id ▸ hr)
  | start job now =>
    replace hr : (l.start job now).2.running = some r := hr
    unfold Ledger.start at hr
    split at hr
    · next hreg => exact .inr ⟨job, now, rfl, (Option.some.inj hr).symm, hreg⟩
    · exact .inl hr
  | clear c id now d =>
    replace hr : (if l.running.any (·.id == id) then none else l.running) = some r := hr
    split at hr
    · cases hr
    · exact .inl hr
  | setDepth c depth => exact .inl hr

/-- Every operation on a ledger keeps it. -/
theorem Kept.change (h : Kept past c l) (hc : op.category = c)
    (hl : (Operation.after past).get c = l) : Kept (op :: past) c (op.change l) where
  names := by
    cases op with
    | register d new => exact (h.sound.register d new).names
    | reserve d new id => exact (h.sound.reserve new id).names
    | release d old id => exact (h.sound.release old id).names
    | start job now => exact (h.sound.start job now).names
    | clear d id now duration => exact (h.sound.clear id now duration).names
    | setDepth d depth => exact h.names
  records := h.records_change hc
  pointer := by
    intro r hr
    rcases running_change op hr with hr | ⟨job, now, rfl, rfl, hreg⟩
    · exact (h.pointer r hr).imp_right (registered_change op)
    · exact ⟨hc, registered_change _ hreg⟩
  counts := by
    intro name
    have hcounts := Operation.counts_change h.sound op (h.counts name)
    rw [Operation.clearings, hl]
    simpa only [hc, true_and] using hcounts

end Ledger

namespace Operation

/-- Every ledger is kept by any number of operations. -/
theorem kept (past : List Operation) (c : Category) : ((after past).get c).Kept past c := by
  induction past with
  | nil =>
    rw [after, PerCategory.get_both]
    exact .empty c
  | cons op past ih =>
    rw [after, get_apply]
    split
    · next hc => exact ih.change hc rfl
    · next hc => exact ih.away hc

/-- A job that was cleared is recorded nowhere. -/
theorem carries_clear (h : OneTargetEach past) (hk : l.Kept past c) (id : JobId) (now : Instant)
    (d : Duration) : (l.clear id now d).2.carries id = false := by
  apply Ledger.clear_clear l id now now d d
  -- two records that name the job would be records of the same target
  have hn : ((l.items.filter (·.isFor id)).map Item.name).Nodup :=
    hk.names.sublist (List.filter_sublist.map _)
  have hof : ∀ i ∈ l.items.filter (·.isFor id), l.jobOf? i.name = some id := by
    intro i hi
    obtain ⟨hmem, hfor⟩ := List.mem_filter.1 hi
    rw [Ledger.jobOf?_of_mem hk.sound hmem]
    exact beq_iff_eq.1 hfor
  generalize l.items.filter (·.isFor id) = found at hn hof ⊢
  rcases found with - | ⟨i, - | ⟨j, is⟩⟩
  · exact Nat.zero_le 1
  · exact Nat.le_refl 1
  · have hname : i.name = j.name := hk.owner_unique h (hof i (by simp)) (hof j (by simp))
    rw [List.map_cons, List.map_cons, List.nodup_cons, hname] at hn
    exact absurd List.mem_cons_self hn.1

/-! ### The records can be trusted -/

/-- After any number of operations in which no job is used for two targets of
one category, the records of each category show what was done:

* a record stands under its own name and in its own category, it shows its target
  running exactly when it names a job, an end and a duration exactly when a clearing
  found it, and as many runs as there were such clearings, modulo 2^64;
* if there were fewer than 2^64 of them, it counts them exactly, and shows an end and a
  duration exactly when it counts a run;
* no two records have the same name, and no two name the same job;
* the worker is shown at a job of this category whose target is registered;
* a job that is cleared is recorded nowhere, and clearing it again, with any
  duration, tells that there was nothing to clear and changes nothing;
* releasing, starting or clearing what is not recorded changes nothing at all. -/
theorem bookkeeping (past : List Operation) (h : OneTargetEach past) (c : Category) :
    (∀ name i, ((after past).get c).item? name = some i →
      i.name = name ∧ i.category = c ∧ (i.running = true ↔ ∃ id, i.job = some id) ∧
      (i.lastEnd.isSome ↔ i.lastDuration.isSome) ∧
      (i.lastDuration.isSome ↔ 0 < clearings c name past) ∧
      i.completedRuns = .ofNat (clearings c name past) ∧
      (clearings c name past < 2 ^ 64 →
        i.completedRuns.toNat = clearings c name past ∧
        (i.lastDuration.isSome ↔ 0 < i.completedRuns))) ∧
    (((after past).get c).items.map Item.name).Nodup ∧
    (∀ i ∈ ((after past).get c).items, ∀ j ∈ ((after past).get c).items, ∀ id,
      i.job = some id → j.job = some id → i = j) ∧
    (∀ r, ((after past).get c).running = some r →
      r.category = c ∧ (((after past).get c).item? r.target).isSome) ∧
    (∀ id now d, ((after (clear c id now d :: past)).get c).carries id = false ∧
      ∀ later e, (((after (clear c id now d :: past)).get c).clear id later e).1 = false ∧
        after (clear c id later e :: clear c id now d :: past) =
          after (clear c id now d :: past)) ∧
    (∀ op, Unrecorded (after past) op → after (op :: past) = after past) := by
  have hk := kept past c
  refine ⟨?records, hk.names, ?owner, hk.pointer, ?cleared, apply_of_unrecorded⟩
  case records =>
    intro name i hi
    obtain ⟨hmem, rfl⟩ := Ledger.mem_of_item? hi
    have hi' := hk.records i hmem
    have hcounts : i.tally.Counts (clearings c i.name past) :=
      Ledger.tally_of_item? hi ▸ hk.counts i.name
    have htimed : i.lastDuration.isSome ↔ 0 < clearings c i.name past := hcounts.lastDuration
    refine ⟨rfl, hi'.category, ?_, hcounts.lastEnd.trans htimed.symm, htimed, hcounts.runs,
      fun hfew => ?_⟩
    · rw [hi'.flag, Option.isSome_iff_exists]
    · have hexact : i.completedRuns.toNat = clearings c i.name past := hcounts.exact hfew
      refine ⟨hexact, ?_⟩
      rw [htimed, ← hexact, UInt64.lt_iff_toNat_lt, UInt64.toNat_zero]
  case owner =>
    intro i hi j hj id hid hjd
    rw [← Ledger.jobOf?_of_mem hk.sound hi] at hid
    rw [← Ledger.jobOf?_of_mem hk.sound hj] at hjd
    exact List.inj_on_of_nodup_map hk.names hi hj (hk.owner_unique h hid hjd)
  case cleared =>
    intro id now d
    have hgone : ((after (clear c id now d :: past)).get c).carries id = false := by
      have hsame : (clear c id now d).category = c := rfl
      rw [after, get_apply, if_pos hsame]
      exact carries_clear h hk id now d
    refine ⟨hgone, ?_⟩
    intro later e
    exact ⟨hgone, apply_of_unrecorded (clear c id later e) hgone⟩

/-- A worker starts a job in the place of another that the target was marked with.
Clearing the other one finds nothing, and one run is counted. -/
theorem bookkeeping_of_override : ∃ past i, OneTargetEach past ∧
    past.length = 5 ∧ ((after past).get .filesystem).item? "root" = some i ∧
    clearings .filesystem "root" past = 1 ∧ i.completedRuns = 1 ∧ i.lastEnd.isSome := by
  let root : JobKind := .filesystem ⟨⟨"/"⟩, "disk"⟩
  let job : Job := ⟨⟨"b"⟩, "root", root, .ofSecs 10, .ofSecs 60, none, .own false⟩
  let past : List Operation :=
    [.clear .filesystem ⟨"b"⟩ 9 (.ofSecs 2), .clear .filesystem ⟨"a"⟩ 8 (.ofSecs 1), .start job 5,
      .reserve .filesystem "root" ⟨"a"⟩, .register .filesystem "root"]
  have hone : OneTargetEach past := by decide
  have hcount : clearings .filesystem "root" past = 1 := by decide
  obtain ⟨i, hi⟩ : ∃ i, ((after past).get .filesystem).item? "root" = some i :=
    Option.isSome_iff_exists.1 (by decide)
  obtain ⟨-, -, -, hends, htimes, hruns, -⟩ := (bookkeeping past hone .filesystem).1 "root" i hi
  rw [hcount] at htimes hruns
  exact ⟨past, i, hone, rfl, hi, hcount, hruns, hends.2 (htimes.2 Nat.one_pos)⟩

end Operation

end DiskWatch
