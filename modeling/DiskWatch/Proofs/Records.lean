/-
DiskWatch/Proofs/Records.lean

The records of a ledger.  Read as a table, a ledger tells for each target which
job the target is marked with (`jobOf?`).  Each operation on the ledger changes
this table in at most one place, and this file says in which.

A ledger is sound if no target has two records and if every record shows its
target running exactly when it names a job.  Every operation keeps a ledger
sound.  Clearing looks for an identifier instead of a name; in a sound ledger it
changes the record of the target that it finds (`clear_items`), the owner of the
job.  A run of the owner ends by that, and by nothing else (`tally_clear`).
-/
import DiskWatch.Ledger
import Mathlib.Algebra.Group.Nat.Defs
import Mathlib.Data.List.Nodup
import Mathlib.Logic.Function.Basic

namespace DiskWatch

namespace Ledger

variable {l : Ledger} {name : String} {id : JobId} {f : Item → Item}

/-- The job that a target is marked with. -/
def jobOf? (l : Ledger) (name : String) : Option JobId := (l.item? name).bind Item.job

/-- No target has two records, and a target is shown running exactly when its
record names a job. -/
structure Sound (l : Ledger) : Prop where
  names : (l.items.map Item.name).Nodup
  flags : ∀ i ∈ l.items, i.running = i.job.isSome

theorem Sound.empty : Sound empty := ⟨List.nodup_nil, nofun⟩

/-! ### Changing one record -/

theorem find?_changeFirst {p : Item → Bool} (is : List Item) (hp : ∀ i, p (f i) = p i) :
    (changeFirst p f is).find? p = (is.find? p).map f := by
  induction is with
  | nil => rfl
  | cons i is ih =>
    cases hi : p i with
    | true => simp [changeFirst, hi, hp]
    | false => simp [changeFirst, hi, ih]

theorem map_name_changeFirst (p : Item → Bool) (hf : ∀ i, (f i).name = i.name) (is : List Item) :
    (changeFirst p f is).map Item.name = is.map Item.name := by
  induction is with
  | nil => rfl
  | cons i is ih =>
    cases hi : p i with
    | true => simp [changeFirst, hi, hf]
    | false => simp [changeFirst, hi, ih]

/-- What all records have, they all have after a change of one that gives it back. -/
theorem forall_changeFirst {P : Item → Prop} {p : Item → Bool} {is : List Item}
    (hf : ∀ i ∈ is, p i = true → P (f i)) (h : ∀ i ∈ is, P i) :
    ∀ i ∈ changeFirst p f is, P i := by
  induction is with
  | nil => exact h
  | cons i is ih =>
    rw [List.forall_mem_cons] at h hf
    cases hi : p i with
    | true =>
      rw [changeFirst, if_pos hi, List.forall_mem_cons]
      exact ⟨hf.1 hi, h.2⟩
    | false =>
      rw [changeFirst, hi, if_neg Bool.false_ne_true, List.forall_mem_cons]
      exact ⟨h.1, ih hf.2 h.2⟩

/-- A change that leaves the record it is made to as it is changes nothing. -/
theorem changeFirst_eq_self {is : List Item} (hf : ∀ i, is.find? p = some i → f i = i) :
    changeFirst p f is = is := by
  induction is with
  | nil => rfl
  | cons i is ih =>
    cases hi : p i with
    | true =>
      have hsame : f i = i := hf i (by rw [List.find?_cons, hi])
      rw [changeFirst, if_pos hi, hsame]
    | false =>
      rw [changeFirst, hi, if_neg Bool.false_ne_true, ih]
      intro j hj
      exact hf j (by rw [List.find?_cons, hi, hj])

theorem item?_changeItem (l : Ledger) (name : String) (hf : ∀ i, (f i).name = i.name) :
    (l.changeItem name f).item? name = (l.item? name).map f :=
  find?_changeFirst l.items fun i => by rw [hf]

theorem item?_changeItem_of_ne (l : Ledger) {name other : String} (hne : other ≠ name)
    (hf : ∀ i, (f i).name = i.name) : (l.changeItem name f).item? other = l.item? other := by
  refine find?_changeFirst_of_ne l.items (fun i hi => ?_) (fun i => by rw [hf])
  rw [beq_iff_eq] at hi
  rw [hi]
  exact beq_false_of_ne hne.symm

/-- Marking a target, or taking its mark away, changes the table in one place. -/
theorem jobOf?_changeItem {v : Option JobId} (hl : (l.item? name).isSome)
    (hf : ∀ i, (f i).name = i.name) (hv : ∀ i, (f i).job = v) :
    (l.changeItem name f).jobOf? = Function.update l.jobOf? name v := by
  funext other
  by_cases hne : other = name
  · subst hne
    obtain ⟨i, hi⟩ := Option.isSome_iff_exists.1 hl
    rw [jobOf?, item?_changeItem l other hf, hi, Function.update_self]
    exact hv i
  · rw [jobOf?, item?_changeItem_of_ne l hne hf, Function.update_of_ne hne]
    rfl

/-- Changing one record keeps a ledger sound, whoever the record is chosen by. -/
theorem Sound.change (h : l.Sound) (p : Item → Bool) (hf : ∀ i, (f i).name = i.name)
    (hflag : ∀ i, (f i).running = (f i).job.isSome) :
    Sound { l with items := changeFirst p f l.items } :=
  ⟨by rw [map_name_changeFirst p hf]; exact h.names,
    forall_changeFirst (fun i _ _ => hflag i) h.flags⟩

/-! ### Looking into a sound ledger -/

theorem item?_of_mem (h : l.Sound) {i : Item} (hi : i ∈ l.items) : l.item? i.name = some i := by
  have hn := h.names
  unfold item?
  induction hl : l.items generalizing l with
  | nil => rw [hl] at hi; cases hi
  | cons j is ih =>
    rw [hl] at hi hn
    rw [List.map_cons, List.nodup_cons] at hn
    rcases List.mem_cons.1 hi with rfl | hi
    · simp
    · -- no other record has the name, so the search goes past this one
      have hne : j.name ≠ i.name := fun he => hn.1 (he ▸ List.mem_map_of_mem hi)
      rw [List.find?_cons, beq_false_of_ne hne]
      refine ih (l := { l with items := is }) ⟨hn.2, fun x hx => ?_⟩ hi hn.2 rfl
      exact h.flags x (hl ▸ List.mem_cons_of_mem j hx)

theorem mem_of_item? {i : Item} (hi : l.item? name = some i) : i ∈ l.items ∧ i.name = name :=
  ⟨List.mem_of_find?_eq_some hi, by simpa using List.find?_some hi⟩

theorem jobOf?_of_mem (h : l.Sound) {i : Item} (hi : i ∈ l.items) : l.jobOf? i.name = i.job := by
  rw [jobOf?, item?_of_mem h hi]; rfl

theorem isSome_item?_of_jobOf? (h : l.jobOf? name = some id) : (l.item? name).isSome := by
  obtain ⟨i, hi, -⟩ := Option.bind_eq_some_iff.1 h
  exact Option.isSome_iff_exists.2 ⟨i, hi⟩

theorem holds_iff : l.holds name id = true ↔ l.jobOf? name = some id := by
  unfold holds jobOf?
  cases l.item? name with
  | none => simp
  | some i => simp [Item.isFor]

/-- In a sound ledger a target is shown running with a job when it is marked with it. -/
theorem shows_iff (h : l.Sound) : l.shows name id = true ↔ l.jobOf? name = some id := by
  unfold shows jobOf?
  cases hi : l.item? name with
  | none => simp
  | some i =>
    have hflag := h.flags i (mem_of_item? hi).1
    cases hj : i.job <;> simp [Item.isFor, hflag, hj]

theorem isSome_item?_iff : (l.item? name).isSome ↔ name ∈ l.items.map Item.name := by
  rw [item?, List.find?_isSome, List.mem_map]
  simp only [beq_iff_eq]

/-- Where the names are the same, the same targets are registered. -/
theorem registered_congr {m : Ledger} (h : m.items.map Item.name = l.items.map Item.name) :
    (m.item? name).isSome = (l.item? name).isSome := by
  rw [Bool.eq_iff_iff, isSome_item?_iff, isSome_item?_iff, h]

/-! ### The operations -/

theorem register_eq (l : Ledger) (c : Category) (name : String) :
    l.register c name = l ∨
      l.item? name = none ∧ l.register c name = { l with items := l.items ++ [.new c name] } := by
  unfold register
  cases hi : l.item? name with
  | none => exact .inr ⟨rfl, rfl⟩
  | some i => exact .inl rfl

theorem Sound.register (h : l.Sound) (c : Category) (name : String) :
    (l.register c name).Sound := by
  rcases register_eq l c name with he | ⟨hi, he⟩
  · rw [he]; exact h
  · rw [he]
    refine ⟨?_, fun i hmem => ?_⟩
    · rw [List.map_append, List.map_singleton, ← List.concat_eq_append]
      -- a record of this name would have been found
      refine List.Nodup.concat (fun hmem => ?_) h.names
      obtain ⟨i, him, hname⟩ := List.mem_map.1 hmem
      have hn := item?_of_mem h him
      rw [hname] at hn
      cases hi.symm.trans hn
    · rcases List.mem_append.1 hmem with hmem | hmem
      · exact h.flags i hmem
      · rw [List.mem_singleton.1 hmem]; rfl

theorem jobOf?_register (l : Ledger) (c : Category) (name : String) :
    (l.register c name).jobOf? = l.jobOf? := by
  rcases register_eq l c name with he | ⟨hi, he⟩
  · rw [he]
  · rw [he]
    funext other
    show ((l.items ++ [Item.new c name]).find? (·.name == other)).bind Item.job = _
    unfold jobOf? item?
    rw [List.find?_append]
    cases l.items.find? (·.name == other) with
    | some i => rfl
    | none => by_cases hn : name = other <;> simp [Item.new, hn]

/-- What an attempt to reserve comes to.  An idle target is marked, in a sound
ledger one that was marked with no job. -/
theorem reserve_eq (h : l.Sound) (name : String) (id : JobId) :
    (l.item? name = none ∧ l.reserve name id = (.unregistered, l)) ∨
      ((∃ k, l.jobOf? name = some k) ∧ l.reserve name id = (.alreadyRunning, l)) ∨
      ((l.item? name).isSome ∧ l.jobOf? name = none ∧
        l.reserve name id = (.admitted, l.changeItem name (.mark id))) := by
  unfold reserve jobOf?
  cases hi : l.item? name with
  | none => exact .inl ⟨rfl, rfl⟩
  | some i =>
    -- the flag of a sound record says whether it has a job
    have hflag := h.flags i (mem_of_item? hi).1
    cases hj : i.job with
    | none => rw [hj] at hflag; exact .inr (.inr ⟨rfl, hj, by simp [hflag]⟩)
    | some k => rw [hj] at hflag; exact .inr (.inl ⟨⟨k, hj⟩, by simp [hflag]⟩)

theorem Sound.reserve (h : l.Sound) (name : String) (id : JobId) : (l.reserve name id).2.Sound := by
  rcases reserve_eq h name id with ⟨-, he⟩ | ⟨-, he⟩ | ⟨-, -, he⟩ <;> rw [he]
  · exact h
  · exact h
  · exact h.change _ (fun _ => rfl) fun _ => rfl

theorem Sound.release (h : l.Sound) (name : String) (id : JobId) : (l.release name id).2.Sound := by
  unfold Ledger.release
  split
  · exact h.change _ (fun _ => rfl) fun _ => rfl
  · exact h

/-- Releasing a job takes away the mark that its target has. -/
theorem jobOf?_release (h : l.jobOf? name = some id) :
    (l.release name id).2.jobOf? = Function.update l.jobOf? name none := by
  rw [release, if_pos (holds_iff.2 h)]
  exact jobOf?_changeItem (isSome_item?_of_jobOf? h) (fun _ => rfl) fun _ => rfl

theorem Sound.start (h : l.Sound) (job : Job) (now : Instant) : (l.start job now).2.Sound := by
  unfold Ledger.start
  split
  · have hs := h.change (f := Item.begin job.id now) (·.name == job.target)
      (fun _ => rfl) fun _ => rfl
    exact ⟨hs.names, hs.flags⟩
  · exact h

/-- Starting a job whose target is marked with it leaves the marks alone. -/
theorem jobOf?_start {job : Job} (now : Instant) (h : l.jobOf? job.target = some job.id) :
    (l.start job now).2.jobOf? = l.jobOf? := by
  have hreg := isSome_item?_of_jobOf? h
  have hchange : (l.changeItem job.target (.begin job.id now)).jobOf? =
      Function.update l.jobOf? job.target (some job.id) :=
    jobOf?_changeItem hreg (fun _ => rfl) fun _ => rfl
  -- the record gets the job that it has already
  rw [← h, Function.update_eq_self] at hchange
  rw [start, if_pos hreg]
  exact hchange

theorem Sound.clear (h : l.Sound) (id : JobId) (now : Instant) (d : Duration) :
    (l.clear id now d).2.Sound := by
  have hs := h.change (f := Item.finish now d) (·.isFor id) (fun _ => rfl) fun _ => rfl
  exact ⟨hs.names, hs.flags⟩

/-! ### What the operations leave alone -/

theorem registered_register {other : String} (c : Category) (name : String)
    (h : (l.item? other).isSome) : ((l.register c name).item? other).isSome := by
  rcases register_eq l c name with he | ⟨-, he⟩
  · rw [he]; exact h
  · rw [isSome_item?_iff] at h ⊢
    rw [he, List.map_append]
    exact List.mem_append_left _ h

theorem names_reserve (l : Ledger) (name : String) (id : JobId) :
    (l.reserve name id).2.items.map Item.name = l.items.map Item.name := by
  rw [reserve]
  split
  · rfl
  · split
    · rfl
    · exact map_name_changeFirst (f := .mark id) _ (fun _ => rfl) l.items

theorem names_release (l : Ledger) (name : String) (id : JobId) :
    (l.release name id).2.items.map Item.name = l.items.map Item.name := by
  rw [Ledger.release]
  split
  · exact map_name_changeFirst (f := .unmark) _ (fun _ => rfl) l.items
  · rfl

theorem names_start (l : Ledger) (job : Job) (now : Instant) :
    (l.start job now).2.items.map Item.name = l.items.map Item.name := by
  rw [Ledger.start]
  split
  · exact map_name_changeFirst (f := .begin job.id now) _ (fun _ => rfl) l.items
  · rfl

theorem names_clear (l : Ledger) (id : JobId) (now : Instant) (d : Duration) :
    (l.clear id now d).2.items.map Item.name = l.items.map Item.name :=
  map_name_changeFirst (f := .finish now d) _ (fun _ => rfl) l.items

theorem running_register (l : Ledger) (c : Category) (name : String) :
    (l.register c name).running = l.running := by
  rcases register_eq l c name with he | ⟨-, he⟩ <;> rw [he]

theorem running_reserve (l : Ledger) (name : String) (id : JobId) :
    (l.reserve name id).2.running = l.running := by
  rw [reserve]
  split
  · rfl
  · split <;> rfl

theorem running_release (l : Ledger) (name : String) (id : JobId) :
    (l.release name id).2.running = l.running := by
  rw [Ledger.release]
  split <;> rfl

/-! ### Clearing -/

/-- The target whose record is found when a job is cleared. -/
def owner? (l : Ledger) (id : JobId) : Option String :=
  (l.items.find? (·.isFor id)).map Item.name

/-- An owner is marked with the job. -/
theorem jobOf?_of_owner (h : l.Sound) (ho : l.owner? id = some name) :
    l.jobOf? name = some id := by
  obtain ⟨i, hi, rfl⟩ := Option.map_eq_some_iff.1 ho
  rw [jobOf?_of_mem h (List.mem_of_find?_eq_some hi)]
  have hfor := List.find?_some hi
  exact beq_iff_eq.1 hfor

theorem owner?_eq_none_iff (h : l.Sound) :
    l.owner? id = none ↔ ∀ other, l.jobOf? other ≠ some id := by
  rw [owner?, Option.map_eq_none_iff, List.find?_eq_none]
  constructor
  · intro hn other ho
    obtain ⟨i, hi, hj⟩ := Option.bind_eq_some_iff.1 ho
    exact hn i (mem_of_item? hi).1 (by rw [Item.isFor, hj, beq_self_eq_true])
  · intro hn i hi hfor
    apply hn i.name
    rw [jobOf?_of_mem h hi]
    exact beq_iff_eq.1 hfor

/-- Where one target alone is marked with a job, it is the owner. -/
theorem owner?_eq_some (h : l.Sound) (hid : ∀ other, l.jobOf? other = some id ↔ other = name) :
    l.owner? id = some name := by
  cases ho : l.owner? id with
  | none => exact absurd ((hid name).2 rfl) ((owner?_eq_none_iff h).1 ho name)
  | some other => rw [(hid other).1 (jobOf?_of_owner h ho)]

/-- Nothing is cleared where no target is marked with the job. -/
theorem clear_items_of_none (ho : l.owner? id = none) (now : Instant) (d : Duration) :
    (l.clear id now d).2.items = l.items :=
  changeFirst_eq_self fun i hi => by
    rw [owner?, hi] at ho
    cases ho

/-- Where every record has a name of its own, it does not matter whether a record
is searched for by its name or by something else that it is the first to have. -/
theorem changeFirst_eq_of_find? {p : Item → Bool} {is : List Item} {i : Item}
    (hn : (is.map Item.name).Nodup) (hi : is.find? p = some i) :
    changeFirst p f is = changeFirst (·.name == i.name) f is := by
  induction is with
  | nil => rfl
  | cons j is ih =>
    rw [List.map_cons, List.nodup_cons] at hn
    rw [List.find?_cons] at hi
    cases hj : p j with
    | true =>
      rw [hj] at hi
      obtain rfl : j = i := Option.some.inj hi
      rw [changeFirst, changeFirst, if_pos hj, if_pos (beq_self_eq_true _)]
    | false =>
      rw [hj] at hi
      have hne : j.name ≠ i.name := fun he =>
        hn.1 (he ▸ List.mem_map_of_mem (List.mem_of_find?_eq_some hi))
      rw [changeFirst, changeFirst, hj, beq_false_of_ne hne, ih hn.2 hi]

/-- Clearing a job changes the record of its owner. -/
theorem clear_items (h : l.Sound) (ho : l.owner? id = some name) (now : Instant) (d : Duration) :
    (l.clear id now d).2.items = (l.changeItem name (.finish now d)).items := by
  obtain ⟨i, hi, rfl⟩ := Option.map_eq_some_iff.1 ho
  exact changeFirst_eq_of_find? h.names hi

/-- Clearing a job takes away the one mark that there is of it. -/
theorem jobOf?_clear (h : l.Sound) (now : Instant) (d : Duration)
    (hid : ∀ other, l.jobOf? other = some id ↔ other = name) :
    (l.clear id now d).2.jobOf? = Function.update l.jobOf? name none := by
  have hreg := isSome_item?_of_jobOf? ((hid name).2 rfl)
  rw [← jobOf?_changeItem (f := .finish now d) hreg (fun _ => rfl) fun _ => rfl]
  funext other
  unfold jobOf? item?
  rw [clear_items h (owner?_eq_some h hid)]

/-- A job that is recorded nowhere is not there to be cleared. -/
theorem clear_of_not_carries (hc : l.carries id = false) (now : Instant) (d : Duration) :
    l.clear id now d = (false, l) := by
  obtain ⟨hp, hi⟩ := Bool.or_eq_false_iff.1 hc
  have hitems : changeFirst (·.isFor id) (.finish now d) l.items = l.items :=
    changeFirst_eq_self fun i hf => by
      have hn := List.any_eq_false.1 hi i (List.mem_of_find?_eq_some hf)
      exact absurd (List.find?_some hf) hn
  rw [clear, hc, hp, if_neg Bool.false_ne_true, hitems]

end Ledger

/-! ### Ended runs -/

/-- What the ends of its runs have written into the record of a target. -/
structure Tally where
  runs : UInt64
  lastEnd : Option Instant
  lastDuration : Option Duration
  deriving DecidableEq, Repr

namespace Tally

/-- No run has ended. -/
def empty : Tally := ⟨0, none, none⟩

/-- One more run has ended. -/
def ended (now : Instant) (d : Duration) (t : Tally) : Tally := ⟨t.runs + 1, some now, some d⟩

/-- So many runs have ended: the word counts them modulo 2^64, and there is a last end
and a last duration if it is not none. -/
structure Counts (t : Tally) (n : Nat) : Prop where
  runs : t.runs = .ofNat n
  lastEnd : t.lastEnd.isSome ↔ 0 < n
  lastDuration : t.lastDuration.isSome ↔ 0 < n

variable {t : Tally} {n : Nat}

theorem Counts.empty : empty.Counts 0 :=
  ⟨rfl, iff_of_false nofun (Nat.lt_irrefl 0), iff_of_false nofun (Nat.lt_irrefl 0)⟩

theorem Counts.ended (h : t.Counts n) (now : Instant) (d : Duration) :
    (t.ended now d).Counts (n + 1) where
  runs := by
    rw [UInt64.ofNat_add, ← h.runs]
    rfl
  lastEnd := iff_of_true rfl (Nat.succ_pos n)
  lastDuration := iff_of_true rfl (Nat.succ_pos n)

/-- Fewer than 2^64 runs are counted exactly. -/
theorem Counts.exact (h : t.Counts n) (hn : n < 2 ^ 64) : t.runs.toNat = n := by
  rw [h.runs]
  exact UInt64.toNat_ofNat_of_lt' hn

end Tally

/-- What the ends of its runs have written into a record. -/
def Item.tally (i : Item) : Tally := ⟨i.completedRuns, i.lastEnd, i.lastDuration⟩

namespace Ledger

variable {l : Ledger} {name : String} {f : Item → Item}

/-- What the ends of its runs have written into the record of a target; nothing where
there is no record. -/
def tally (l : Ledger) (name : String) : Tally := (l.item? name).elim .empty Item.tally

theorem tally_of_item? {i : Item} (hi : l.item? name = some i) : l.tally name = i.tally := by
  rw [tally, hi]
  rfl

theorem tally_register (l : Ledger) (c : Category) (name : String) :
    (l.register c name).tally = l.tally := by
  rcases register_eq l c name with he | ⟨hi, he⟩
  · rw [he]
  · rw [he]
    funext other
    show ((l.items ++ [Item.new c name]).find? (·.name == other)).elim .empty Item.tally = _
    unfold tally item?
    rw [List.find?_append]
    -- no run has ended in a new record, nor where there is no record
    cases l.items.find? (·.name == other) with
    | some i => rfl
    | none => by_cases hn : name = other <;> simp [Item.new, hn, Item.tally, Tally.empty]

/-- A change of a record by which no run ends. -/
theorem tally_changeItem_of_eq (hf : ∀ i, (f i).name = i.name)
    (hk : ∀ i, (f i).tally = i.tally) : (l.changeItem name f).tally = l.tally := by
  funext other
  unfold tally
  by_cases hne : other = name
  · subst hne
    rw [item?_changeItem l other hf]
    cases l.item? other with
    | none => rfl
    | some i => exact hk i
  · rw [item?_changeItem_of_ne l hne hf]

theorem tally_reserve (l : Ledger) (name : String) (id : JobId) :
    (l.reserve name id).2.tally = l.tally := by
  unfold reserve
  split
  · rfl
  · split
    · rfl
    · exact tally_changeItem_of_eq (f := .mark id) (fun _ => rfl) fun _ => rfl

theorem tally_release (l : Ledger) (name : String) (id : JobId) :
    (l.release name id).2.tally = l.tally := by
  unfold Ledger.release
  split
  · exact tally_changeItem_of_eq (f := .unmark) (fun _ => rfl) fun _ => rfl
  · rfl

theorem tally_start (l : Ledger) (job : Job) (now : Instant) :
    (l.start job now).2.tally = l.tally := by
  unfold Ledger.start
  split
  · exact tally_changeItem_of_eq (f := .begin job.id now) (fun _ => rfl) fun _ => rfl
  · rfl

/-- Clearing a job ends one run of its owner. -/
theorem tally_clear (h : l.Sound) (id : JobId) (now : Instant) (d : Duration) (name : String) :
    (l.clear id now d).2.tally name =
      if l.owner? id = some name then (l.tally name).ended now d else l.tally name := by
  unfold tally item?
  cases ho : l.owner? id with
  | none => rw [clear_items_of_none ho]; rfl
  | some owner =>
    rw [clear_items h ho]
    show ((l.changeItem owner (.finish now d)).item? name).elim .empty Item.tally = _
    by_cases hne : name = owner
    · subst hne
      obtain ⟨i, hi⟩ := Option.isSome_iff_exists.1 (isSome_item?_of_jobOf? (jobOf?_of_owner h ho))
      rw [item?_changeItem l name (f := .finish now d) fun _ => rfl, if_pos rfl]
      show ((l.item? name).map (.finish now d)).elim .empty Item.tally =
        ((l.item? name).elim .empty Item.tally).ended now d
      rw [hi]
      rfl
    · rw [item?_changeItem_of_ne l hne (f := .finish now d) fun _ => rfl,
        if_neg fun he => hne (Option.some.inj he).symm]
      rfl

end Ledger

end DiskWatch
