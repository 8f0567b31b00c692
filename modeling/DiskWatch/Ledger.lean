/-
DiskWatch/Ledger.lean

The bookkeeping of one category: which targets there are, which of them has a
job under way, which job the worker is at, and how deep the queue was when last
looked at.  An item has a flag that tells whether a job is under way, and beside
it the identifier of that job.

Every operation is one step on the ledger.  Releasing and clearing act only
when the identifier is the one recorded, so a late call for an old job does
nothing.

Main results: registering twice changes nothing (`register_register`), an idle
target is admitted and a running one is not (`reserve_eq_admitted_iff`), and
clearing a job a second time finds nothing (`clear_clear`).
-/
import DiskWatch.Job
import DiskWatch.Telemetry.Span

namespace DiskWatch

/-- A point in time, in nanoseconds since the start of the clock. -/
abbrev Instant := Nat

/-- The record of one target. -/
structure Item where
  name : String
  category : Category
  /-- Whether a job of the target is under way. -/
  running : Bool
  /-- The job that is under way. -/
  job : Option JobId
  lastStart : Option Instant
  lastEnd : Option Instant
  lastDuration : Option Duration
  /-- The number of runs that the worker has finished, counted modulo 2^64. -/
  completedRuns : UInt64
  deriving DecidableEq, Repr

namespace Item

/-- A target that has never run. -/
def new (category : Category) (name : String) : Item :=
  ⟨name, category, false, none, none, none, none, 0⟩

/-- Whether the record names this very job. -/
def isFor (i : Item) (id : JobId) : Bool := i.job == some id

/-- The record once a job is under way. -/
def mark (id : JobId) (i : Item) : Item := { i with running := true, job := some id }

/-- The record once no job is under way any more. -/
def unmark (i : Item) : Item := { i with running := false, job := none }

/-- The record after the worker has started a job. -/
def begin (id : JobId) (now : Instant) (i : Item) : Item :=
  { i.mark id with lastStart := some now }

/-- The record after a run has ended. -/
def finish (now : Instant) (duration : Duration) (i : Item) : Item :=
  { i.unmark with
    lastEnd := some now
    lastDuration := some duration
    completedRuns := i.completedRuns + 1 }

end Item

/-- The job that a worker is at. -/
structure RunningJob where
  id : JobId
  category : Category
  target : String
  path : Path
  startedAt : Instant
  deriving DecidableEq, Repr

/-- The record of a job that the worker starts. -/
def RunningJob.ofJob (job : Job) (now : Instant) : RunningJob :=
  ⟨job.id, job.category, job.target, job.path, now⟩

/-- The bookkeeping of one category. -/
structure Ledger where
  items : List Item
  running : Option RunningJob
  depth : Nat
  deriving DecidableEq, Repr

namespace Ledger

/-- No targets yet. -/
def empty : Ledger := ⟨[], none, 0⟩

/-! ### Looking -/

/-- The record of a target. -/
def item? (l : Ledger) (name : String) : Option Item := l.items.find? (·.name == name)

/-- Whether a target has a job under way. -/
def isRunning (l : Ledger) (name : String) : Bool := (l.item? name).any Item.running

/-- Whether the record of a target names this very job. -/
def holds (l : Ledger) (name : String) (id : JobId) : Bool := (l.item? name).any (·.isFor id)

/-- Whether a target is shown running with this very job. -/
def shows (l : Ledger) (name : String) (id : JobId) : Bool :=
  (l.item? name).any fun i => i.running && i.isFor id

/-- The records in the order of their names. -/
def sortedItems (l : Ledger) : List Item := l.items.mergeSort (fun a b => !(b.name < a.name))

/-! ### Changing one item -/

/-- Changes the first item of class `p`. -/
def changeFirst (p : Item → Bool) (f : Item → Item) : List Item → List Item
  | [] => []
  | i :: is => if p i then f i :: is else i :: changeFirst p f is

/-- Changes the record of a target. -/
def changeItem (l : Ledger) (name : String) (f : Item → Item) : Ledger :=
  { l with items := changeFirst (·.name == name) f l.items }

/-! ### Operations -/

/-- Adds a target; one that is there keeps its record. -/
def register (l : Ledger) (category : Category) (name : String) : Ledger :=
  if (l.item? name).isSome then l else { l with items := l.items ++ [.new category name] }

/-- Looks and marks in one step: an idle target is marked with the job. -/
def reserve (l : Ledger) (name : String) (id : JobId) : Admission × Ledger :=
  match l.item? name with
  | none => (.unregistered, l)
  | some item =>
    if item.running then (.alreadyRunning, l)
    else (.admitted, l.changeItem name (.mark id))

/-- Takes an admission back, if the target is still marked with this job. -/
def release (l : Ledger) (name : String) (id : JobId) : Bool × Ledger :=
  if l.holds name id then (true, l.changeItem name .unmark) else (false, l)

/-- Records that the worker starts a job, unless its target is not registered. -/
def start (l : Ledger) (job : Job) (now : Instant) : Bool × Ledger :=
  if (l.item? job.target).isSome then
    (true, { l.changeItem job.target (.begin job.id now) with
      running := some (.ofJob job now) })
  else (false, l)

/-- Whether a job is recorded anywhere. -/
def carries (l : Ledger) (id : JobId) : Bool :=
  l.running.any (·.id == id) || l.items.any (·.isFor id)

/-- Records the end of a job: the worker is at no job any more if it was at
this one, and the target that holds the job becomes idle.  Tells whether there
was anything to clear. -/
def clear (l : Ledger) (id : JobId) (now : Instant) (duration : Duration) : Bool × Ledger :=
  (l.carries id,
    { l with
      running := if l.running.any (·.id == id) then none else l.running
      items := changeFirst (·.isFor id) (.finish now duration) l.items })

/-- Records the depth of the queue. -/
def setDepth (l : Ledger) (depth : Nat) : Ledger := { l with depth := depth }

/-! ### Laws -/

theorem find?_changeFirst_of_ne {p q : Item → Bool} {f : Item → Item} (is : List Item)
    (hf : ∀ i, q i = true → p i = false) (hk : ∀ i, p (f i) = p i) :
    (changeFirst q f is).find? p = is.find? p := by
  induction is with
  | nil => rfl
  | cons i is ih =>
    by_cases hq : q i = true
    · have hp := hf i hq
      simp [changeFirst, hq, hk, hp]
    · have hq' : q i = false := by simpa using hq
      simp only [changeFirst, hq', Bool.false_eq_true, if_false, List.find?_cons, ih]

/-- Adding a target that is there changes nothing. -/
theorem register_of_registered {l : Ledger} {category : Category} {name : String}
    (h : (l.item? name).isSome) : l.register category name = l := if_pos h

/-- A target that was added is there. -/
theorem item?_register (l : Ledger) (category : Category) (name : String) :
    ((l.register category name).item? name).isSome := by
  unfold register
  split
  · assumption
  · simp [item?, Item.new]

/-- Adding a target a second time changes nothing. -/
theorem register_register (l : Ledger) (category : Category) (name : String) :
    (l.register category name).register category name = l.register category name :=
  register_of_registered (item?_register l category name)

theorem depth_register (l : Ledger) (category : Category) (name : String) :
    (l.register category name).depth = l.depth := by
  unfold register
  split <;> rfl

theorem depth_reserve (l : Ledger) (name : String) (id : JobId) :
    (l.reserve name id).2.depth = l.depth := by
  unfold reserve
  split
  · rfl
  · split <;> rfl

theorem depth_release (l : Ledger) (name : String) (id : JobId) :
    (l.release name id).2.depth = l.depth := by
  unfold release
  split <;> rfl

theorem depth_start (l : Ledger) (job : Job) (now : Instant) :
    (l.start job now).2.depth = l.depth := by
  unfold start
  split <;> rfl

/-- A target is admitted if and only if it is there and idle. -/
theorem reserve_eq_admitted_iff (l : Ledger) (name : String) (id : JobId) :
    (l.reserve name id).1 = .admitted ↔ ∃ i, l.item? name = some i ∧ i.running = false := by
  unfold reserve
  cases h : l.item? name with
  | none => simp
  | some item => by_cases hr : item.running <;> simp [hr]

theorem changeFirst_any {p : Item → Bool} {f : Item → Item} (is : List Item)
    (hf : ∀ i, p (f i) = false) (h : (is.filter p).length ≤ 1) :
    (changeFirst p f is).any p = false := by
  induction is with
  | nil => rfl
  | cons i is ih =>
    by_cases hp : p i = true
    · simp only [List.filter_cons, hp, if_true, List.length_cons] at h
      have hn : is.filter p = [] := List.length_eq_zero_iff.1 (by omega)
      simp only [changeFirst, hp, if_true, List.any_cons, hf, Bool.false_or]
      rw [List.any_eq_false]
      intro x hx hpx
      exact absurd (List.mem_filter.2 ⟨hx, hpx⟩) (by simp [hn])
    · have hp' : p i = false := by simpa using hp
      simp only [List.filter_cons, hp', Bool.false_eq_true, if_false] at h
      simp only [changeFirst, hp', Bool.false_eq_true, if_false, List.any_cons, Bool.false_or]
      exact ih h

/-- A job that one target at most holds is gone after it was cleared. -/
theorem clear_clear (l : Ledger) (id : JobId) (now later : Instant) (d e : Duration)
    (h : (l.items.filter (·.isFor id)).length ≤ 1) :
    ((l.clear id now d).2.clear id later e).1 = false := by
  have h1 : ((l.clear id now d).2.items).any (·.isFor id) = false :=
    changeFirst_any l.items (fun i => by simp [Item.finish, Item.unmark, Item.isFor]) h
  have h2 : ((l.clear id now d).2.running).any (·.id == id) = false := by
    simp only [clear]
    split
    · rfl
    · next hn => simpa using hn
  show carries _ id = false
  unfold carries
  rw [h1, h2]; rfl

end Ledger

end DiskWatch
