/-
DiskWatch/Queue.lean

The bounded queue of one category.  Handing a job over never waits: it is taken
in, or refused because the queue is full or its consumer is gone.  The consumer
takes jobs out in the order in which they came in.

Main results: what was in the queue plus what was taken in is what is in the
queue (`offer_accepted_jobs`), the size stays within the capacity
(`size_le_capacity`), and a refused job leaves the queue as it was.
-/
import DiskWatch.Job

namespace DiskWatch

/-- The capacity of a queue unless the configuration sets one. -/
def defaultCapacity : Nat := 100

/-- The greatest capacity for which a queue can be built. -/
def greatestCapacity : Nat := (1 <<< 61) - 1

/-- The bounded queue of one category. -/
structure Queue where
  capacity : Nat
  jobs : List Job
  /-- Whether the consumer is still there. -/
  consumed : Bool
  /-- The number of producers that are still there. -/
  producers : Nat
  deriving DecidableEq, Repr

/-- What becomes of a job that is handed over. -/
inductive Offer
  | accepted
  | full
  | closed
  deriving DecidableEq, Repr

/-- What the consumer finds. -/
inductive Delivery
  | job (job : Job)
  | pending
  | finished
  | dropped
  deriving DecidableEq, Repr

namespace Queue

/-- An empty queue with one producer.  A capacity of at least one is kept; none
is built beyond the greatest capacity. -/
def build? (capacity : Nat) : Option Queue :=
  if max 1 capacity ≤ greatestCapacity then some ⟨max 1 capacity, [], true, 1⟩ else none

/-- The number of waiting jobs. -/
def size (q : Queue) : Nat := q.jobs.length

/-- Hands a job over. -/
def offer (q : Queue) (job : Job) : Offer × Queue :=
  if !q.consumed then (.closed, q)
  else if q.capacity ≤ q.size then (.full, q)
  else (.accepted, { q with jobs := q.jobs ++ [job] })

/-- Takes the next job out.  Without one the consumer waits, or is at the end
once no producer is left. -/
def take (q : Queue) : Delivery × Queue :=
  if !q.consumed then (.dropped, q)
  else match q.jobs with
    | job :: rest => (.job job, { q with jobs := rest })
    | [] => (if q.producers = 0 then .finished else .pending, q)

/-- The consumer goes away, and the waiting jobs with it. -/
def dropConsumer (q : Queue) : Queue := { q with jobs := [], consumed := false }

/-- One more producer. -/
def addProducer (q : Queue) : Queue := { q with producers := q.producers + 1 }

/-- One producer less. -/
def dropProducer (q : Queue) : Queue := { q with producers := q.producers - 1 }

/-! ### Laws -/

/-- A job that is taken in comes last. -/
theorem offer_accepted_jobs {q : Queue} {job : Job} (h : (q.offer job).1 = .accepted) :
    (q.offer job).2.jobs = q.jobs ++ [job] := by
  unfold offer at h ⊢
  split
  · next hc => simp [hc] at h
  · split
    · next hc hf => simp [hc, hf] at h
    · rfl

/-- A refused job changes nothing. -/
theorem offer_refused {q : Queue} {job : Job} (h : (q.offer job).1 ≠ .accepted) :
    (q.offer job).2 = q := by
  unfold offer at h ⊢
  split
  · rfl
  · split
    · rfl
    · next hc hf => simp [hc, hf] at h

/-- Handing over keeps the size within the capacity. -/
theorem size_le_capacity {q : Queue} (job : Job) (h : q.size ≤ q.capacity) :
    (q.offer job).2.size ≤ (q.offer job).2.capacity := by
  unfold offer
  split
  · exact h
  · split
    · exact h
    · next hf => simp only [size, List.length_append, List.length_singleton] at *; omega

/-- The job that is taken out is the first one. -/
theorem take_job {q : Queue} {job : Job} (h : (q.take).1 = .job job) :
    q.jobs = job :: (q.take).2.jobs := by
  unfold take at h ⊢
  cases hc : q.consumed with
  | false => simp [hc] at h
  | true =>
    cases hj : q.jobs with
    | nil => simp only [hc, hj] at h; by_cases hp : q.producers = 0 <;> simp [hp] at h
    | cons j rest => simp only [hc, hj] at h; simp at h; simp [h]

end Queue

end DiskWatch
