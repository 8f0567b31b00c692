/-
DiskWatch/Proofs/Renaming.lean

Other identifiers for the same jobs.  A permutation of the identifiers goes through
everything that names a job: the records of the targets, the job at the worker, the
jobs in a queue.  The spans that observers know a job by are left out, so what is
renamed is what can be told without them.

No operation looks into an identifier; they are compared with each other and that is
all.  So every operation of a ledger and of a queue does the same under other names
(`Ledger.reserve_rename` and its like): with the renamed arguments it gives the same
answer and the renamed result.
-/
import DiskWatch.Proofs.Bookkeeping
import DiskWatch.Queue
import Mathlib.Algebra.Group.End
import Mathlib.Logic.Equiv.Fintype

namespace DiskWatch

/-- Some identifiers can be exchanged for as many others, and the rest stay as they are. -/
theorem exists_perm_map_eq {α : Type} [DecidableEq α] {xs ys : List α} (hx : xs.Nodup)
    (hy : ys.Nodup) (hlen : xs.length = ys.length) :
    ∃ f : Equiv.Perm α, xs.map f = ys ∧ ∀ a, a ∉ xs → a ∉ ys → f a = a := by
  -- a permutation of what is in either list, and of nothing else
  let into (i : Fin xs.length) : { a // a ∈ xs ++ ys } := ⟨xs[i], by simp⟩
  let onto (i : Fin xs.length) : { a // a ∈ xs ++ ys } := ⟨ys[i], by simp⟩
  have hinto : Function.Injective into := fun i j hij =>
    List.nodup_iff_injective_get.1 hx (Subtype.mk.inj hij)
  have honto : Function.Injective onto := fun i j hij =>
    Fin.ext (by simpa using (hy.getElem_inj_iff).1 (Subtype.mk.inj hij))
  obtain ⟨σ, hσ⟩ := Equiv.Perm.exists_extending_pair into onto hinto honto
  refine ⟨Equiv.Perm.ofSubtype σ, List.ext_getElem (by simp [hlen]) ?_, ?_⟩
  · intro i hi hi'
    have hin : i < xs.length := by simpa using hi
    have hi := congrArg Subtype.val (hσ ⟨i, hin⟩)
    rw [List.getElem_map, Equiv.Perm.ofSubtype_apply_of_mem]
    exact hi
  · intro a hax hay
    exact Equiv.Perm.ofSubtype_apply_of_not_mem σ (by simp [hax, hay])

variable (f g : Equiv.Perm JobId)

theorem beq_rename (id other : JobId) : (f id == f other) = (id == other) := by
  rw [Bool.eq_iff_iff, beq_iff_eq, beq_iff_eq]
  exact f.apply_eq_iff_eq

/-! ### Jobs -/

/-- The job under another identifier, without its span. -/
def Job.rename (job : Job) : Job := { job with id := f job.id, cycle := none }

/-- The record of the job at a worker under another identifier. -/
def RunningJob.rename (r : RunningJob) : RunningJob := { r with id := f r.id }

/-! ### Records -/

namespace Item

/-- The record with the job that is under way under another identifier. -/
def rename (i : Item) : Item := { i with job := i.job.map f }

theorem isFor_rename (i : Item) (id : JobId) : (i.rename f).isFor (f id) = i.isFor id := by
  unfold isFor rename
  cases i.job with
  | none => rfl
  | some other => simp

end Item

namespace Ledger

variable {l : Ledger} {name : String} {id : JobId}

/-- The ledger with its jobs under other identifiers. -/
def rename (l : Ledger) : Ledger where
  items := l.items.map (Item.rename f)
  running := l.running.map (RunningJob.rename f)
  depth := l.depth

theorem map_changeFirst {p q : Item → Bool} {h k e : Item → Item} (hp : ∀ i, q (e i) = p i)
    (hh : ∀ i, e (h i) = k (e i)) (is : List Item) :
    (changeFirst p h is).map e = changeFirst q k (is.map e) := by
  induction is with
  | nil => rfl
  | cons i is ih =>
    cases hi : p i with
    | true => simp [changeFirst, hi, hp, hh]
    | false => simp [changeFirst, hi, hp, ih]

theorem item?_rename (l : Ledger) (name : String) :
    (l.rename f).item? name = (l.item? name).map (Item.rename f) := by
  rw [item?, rename, List.find?_map]
  rfl

theorem changeItem_rename {h h' : Item → Item} (hh : ∀ i : Item, (h i).rename f = h' (i.rename f))
    (l : Ledger) (name : String) :
    (l.rename f).changeItem name h' = (l.changeItem name h).rename f := by
  have hitems := map_changeFirst (p := (·.name == name)) (q := (·.name == name))
    (e := Item.rename f) (fun _ => rfl) hh l.items
  exact congrArg (fun is => { l.rename f with items := is }) hitems.symm

theorem register_rename (l : Ledger) (c : Category) (name : String) :
    (l.rename f).register c name = (l.register c name).rename f := by
  rw [register, register, item?_rename, Option.isSome_map]
  split
  · rfl
  · simp [rename, Item.rename, Item.new]

theorem reserve_rename (l : Ledger) (name : String) (id : JobId) :
    (l.rename f).reserve name (f id) =
      ((l.reserve name id).1, (l.reserve name id).2.rename f) := by
  rw [reserve, reserve, item?_rename]
  cases l.item? name with
  | none => rfl
  | some i =>
    have hmark : ∀ i : Item, (i.mark id).rename f = (i.rename f).mark (f id) := fun _ => rfl
    cases hr : i.running with
    | true => simp [Item.rename, hr]
    | false => simp [Item.rename, hr, changeItem_rename f hmark]

theorem holds_rename (l : Ledger) (name : String) (id : JobId) :
    (l.rename f).holds name (f id) = l.holds name id := by
  rw [holds, holds, item?_rename]
  cases l.item? name with
  | none => rfl
  | some i => exact i.isFor_rename f id

theorem shows_rename (l : Ledger) (name : String) (id : JobId) :
    (l.rename f).shows name (f id) = l.shows name id := by
  rw [shows, shows, item?_rename]
  cases l.item? name with
  | none => rfl
  | some i => exact congrArg (i.running && ·) (i.isFor_rename f id)

theorem release_rename (l : Ledger) (name : String) (id : JobId) :
    (l.rename f).release name (f id) =
      ((l.release name id).1, (l.release name id).2.rename f) := by
  have hunmark : ∀ i : Item, i.unmark.rename f = (i.rename f).unmark := fun _ => rfl
  rw [Ledger.release, Ledger.release, holds_rename]
  split
  · rw [changeItem_rename f hunmark]
  · rfl

theorem start_rename (l : Ledger) (job : Job) (now : Instant) :
    (l.rename f).start (job.rename f) now =
      ((l.start job now).1, (l.start job now).2.rename f) := by
  have hbegin : ∀ i : Item, (i.begin job.id now).rename f = (i.rename f).begin (f job.id) now :=
    fun _ => rfl
  have hchange := changeItem_rename f hbegin l job.target
  have hsome : ((l.rename f).item? (job.rename f).target).isSome = (l.item? job.target).isSome := by
    rw [Job.rename, item?_rename, Option.isSome_map]
  rw [Ledger.start, Ledger.start, hsome]
  split
  · exact congrArg (fun m : Ledger =>
      (true, { m with running := some (RunningJob.ofJob (job.rename f) now) })) hchange
  · rfl

theorem any_running_rename (l : Ledger) (id : JobId) :
    (l.rename f).running.any (·.id == f id) = l.running.any (·.id == id) := by
  rw [rename]
  cases l.running with
  | none => rfl
  | some r => simp [RunningJob.rename]

theorem carries_rename (l : Ledger) (id : JobId) :
    (l.rename f).carries (f id) = l.carries id := by
  have hitems : (l.rename f).items.any (·.isFor (f id)) = l.items.any (·.isFor id) := by
    rw [rename, List.any_map]
    exact congrArg _ (funext fun i => i.isFor_rename f id)
  rw [carries, carries, any_running_rename, hitems]

theorem clear_rename (l : Ledger) (id : JobId) (now : Instant) (d : Duration) :
    (l.rename f).clear (f id) now d = ((l.clear id now d).1, (l.clear id now d).2.rename f) := by
  have hitems := map_changeFirst (p := (·.isFor id)) (q := (·.isFor (f id)))
    (h := Item.finish now d) (k := Item.finish now d) (e := Item.rename f)
    (fun i => i.isFor_rename f id) (fun _ => rfl) l.items
  have hrunning : (if (l.rename f).running.any (·.id == f id) then none
      else (l.rename f).running) =
      (if l.running.any (·.id == id) then none else l.running).map (RunningJob.rename f) := by
    rw [any_running_rename]
    split <;> rfl
  refine Prod.ext (carries_rename f l id) ?_
  show (⟨_, _, l.depth⟩ : Ledger) = ⟨_, _, l.depth⟩
  rw [hrunning]
  exact congrArg (fun is => (⟨is, _, l.depth⟩ : Ledger)) hitems.symm

theorem setDepth_rename (l : Ledger) (depth : Nat) :
    (l.rename f).setDepth depth = (l.setDepth depth).rename f := rfl

end Ledger

/-! ### Operations -/

namespace Operation

/-- The same call about the same jobs under other identifiers. -/
def rename : Operation → Operation
  | register c name => register c name
  | reserve c name id => reserve c name (f id)
  | release c name id => release c name (f id)
  | start job now => start (job.rename f) now
  | clear c id now duration => clear c (f id) now duration
  | setDepth c depth => setDepth c depth

theorem category_rename (op : Operation) : (op.rename f).category = op.category := by
  cases op <;> rfl

theorem rename_rename (op : Operation) : (op.rename f).rename g = op.rename (f.trans g) := by
  cases op <;> rfl

theorem change_rename (op : Operation) (l : Ledger) :
    (op.rename f).change (l.rename f) = (op.change l).rename f := by
  cases op with
  | register c name => exact l.register_rename f c name
  | reserve c name id => exact congrArg Prod.snd (l.reserve_rename f name id)
  | release c name id => exact congrArg Prod.snd (l.release_rename f name id)
  | start job now => exact congrArg Prod.snd (l.start_rename f job now)
  | clear c id now d => exact congrArg Prod.snd (l.clear_rename f id now d)
  | setDepth c depth => exact l.setDepth_rename f depth

end Operation

/-! ### Queues -/

/-- The same delivery, with its job under another identifier. -/
def Delivery.rename (f : Equiv.Perm JobId) (d : Delivery) : Delivery :=
  match d with
  | .job taken => .job (taken.rename f)
  | _ => d

namespace Queue

/-- The queue with its jobs under other identifiers. -/
def rename (q : Queue) : Queue := { q with jobs := q.jobs.map (Job.rename f) }

theorem size_rename (q : Queue) : (q.rename f).size = q.size := List.length_map _

theorem offer_rename (q : Queue) (job : Job) :
    (q.rename f).offer (job.rename f) = ((q.offer job).1, (q.offer job).2.rename f) := by
  rw [offer, offer, size_rename]
  show (if !q.consumed then _ else if q.capacity ≤ q.size then _ else _) = _
  split
  · rfl
  split
  · rfl
  · simp [rename]

theorem take_rename (q : Queue) :
    (q.rename f).take = (q.take.1.rename f, q.take.2.rename f) := by
  cases hc : q.consumed with
  | false => simp [take, rename, hc, Delivery.rename]
  | true =>
    cases hj : q.jobs with
    | cons job jobs => simp [take, rename, hc, hj, Delivery.rename]
    | nil =>
      simp only [take, rename, hc, hj, List.map_nil]
      by_cases hp : q.producers = 0 <;> simp [hp, hc, hj, Delivery.rename]

end Queue

end DiskWatch
