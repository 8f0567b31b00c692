/-
DiskWatch/Activity.lean

A measurement as a tree of what it does to the outside world.  Each node is one
exchange: a look at a path, the call of a program, a pause that a cancellation
may cut short, or a note for the observers; what follows depends on the answer.
The tree itself knows no clock and no state, so the same measurement can be run
alone or step by step among other tasks.

Main results: `bind` puts activities one after another, with `done` as its
identity on both sides, and it is associative.  What holds of the calls of an
operation holds of the calls of its attempts (`Uses.retrying`).
-/
import DiskWatch.Call
import DiskWatch.Retry
import DiskWatch.Telemetry.Log

namespace DiskWatch

/-- Something to note while an activity goes on. -/
inductive Note
  | event (e : Event)
  /-- A report was read, under the span that is current. -/
  | parsed (tool : Tool) (lines : Nat) (samples : Option Nat)
  deriving DecidableEq, Repr

/-- What is done, down to a result. -/
inductive Activity (α : Type)
  | done (a : α)
  | look (path : Path) (next : PathStatus → Activity α)
  | call (c : Call) (next : Except Error String → Activity α)
  /-- A pause; the answer tells whether it was cut short by a cancellation. -/
  | pause (length : Duration) (next : Bool → Activity α)
  | note (n : Note) (next : Activity α)

namespace Activity

variable {α β γ : Type}

/-- One activity after another. -/
def bind : Activity α → (α → Activity β) → Activity β
  | done a, k => k a
  | look p next, k => look p fun s => (next s).bind k
  | call c next, k => call c fun r => (next r).bind k
  | pause d next, k => pause d fun b => (next b).bind k
  | note n next, k => note n (next.bind k)

instance : Monad Activity where
  pure := done
  bind := bind

@[simp] theorem done_bind (a : α) (k : α → Activity β) : (done a).bind k = k a := rfl

@[simp] theorem bind_done (x : Activity α) : x.bind done = x := by
  induction x with
  | done a => rfl
  | look p next ih => simp [bind, ih]
  | call c next ih => simp [bind, ih]
  | pause d next ih => simp [bind, ih]
  | note n next ih => simp [bind, ih]

theorem bind_assoc (x : Activity α) (f : α → Activity β) (g : β → Activity γ) :
    (x.bind f).bind g = x.bind fun a => (f a).bind g := by
  induction x with
  | done a => rfl
  | look p next ih => simp [bind, ih]
  | call c next ih => simp [bind, ih]
  | pause d next ih => simp [bind, ih]
  | note n next ih => simp [bind, ih]

/-! ### Trying again -/

/-- Tries an operation from the given attempt on, with `spare` more attempts
after it. -/
def tryFrom (policy : RetryPolicy) (name : String)
    (op : Nat → Activity (Except Error α)) : Nat → Nat → Activity (Except Error α)
  | spare, attempt =>
    (op attempt).bind fun
      | .ok a => done (.ok a)
      | .error e =>
        if !e.retryable then done (.error e)
        else match spare with
          | 0 => note (.event (.retriesExhausted name attempt e)) (done (.error e))
          | spare + 1 =>
            note (.event (.backingOff name attempt (policy.delayAfter attempt) e))
              (pause (policy.delayAfter attempt) fun cancelled =>
                if cancelled then done (.error .cancelled)
                else tryFrom policy name op spare (attempt + 1))

/-- Tries an operation until it succeeds, fails for good, or the attempts of the
policy are used up; the last error is the result.  A cancellation is looked at
in the pauses only. -/
def retrying (policy : RetryPolicy) (name : String)
    (op : Nat → Activity (Except Error α)) : Activity (Except Error α) :=
  tryFrom policy name op (policy.attempts - 1) 1

/-- A call that is tried comes first. -/
theorem retrying_call (policy : RetryPolicy) (name : String) (c : Call) :
    ∃ next, retrying policy name (fun _ => call c done) = call c next := by
  rw [retrying, tryFrom]
  exact ⟨_, rfl⟩

/-! ### One exchange after another -/

/-- What is left of an activity after an exchange, by the answer. -/
inductive Next : Activity α → Activity α → Prop
  | look (path : Path) (next : PathStatus → Activity α) (status : PathStatus) :
      Next (look path next) (next status)
  | call (c : Call) (next : Except Error String → Activity α) (answer : Except Error String) :
      Next (call c next) (next answer)
  | pause (length : Duration) (next : Bool → Activity α) (cut : Bool) :
      Next (pause length next) (next cut)
  | note (n : Note) (next : Activity α) : Next (note n next) next

/-! ### What is called -/

/-- Whatever the answers, only such calls are made. -/
def Uses (p : Call → Prop) : Activity α → Prop
  | done _ => True
  | look _ next => ∀ status, (next status).Uses p
  | call c next => p c ∧ ∀ answer, (next answer).Uses p
  | pause _ next => ∀ cut, (next cut).Uses p
  | note _ next => next.Uses p

theorem Uses.next {p : Call → Prop} {x y : Activity α} (hx : x.Uses p) (h : x.Next y) :
    y.Uses p := by
  cases h with
  | look path next status => exact hx status
  | call c next answer => exact hx.2 answer
  | pause length next cut => exact hx cut
  | note n next => exact hx

theorem Uses.bind {p : Call → Prop} {x : Activity α} {k : α → Activity β} (hx : x.Uses p)
    (hk : ∀ a, (k a).Uses p) : (x.bind k).Uses p := by
  induction x with
  | done a => exact hk a
  | look path next ih => exact fun status => ih status (hx status)
  | call c next ih => exact ⟨hx.1, fun answer => ih answer (hx.2 answer)⟩
  | pause length next ih => exact fun cut => ih cut (hx cut)
  | note n next ih => exact ih hx

theorem Uses.tryFrom {p : Call → Prop} {op : Nat → Activity (Except Error α)}
    (hop : ∀ attempt, (op attempt).Uses p) (policy : RetryPolicy) (name : String)
    (spare attempt : Nat) : (tryFrom policy name op spare attempt).Uses p := by
  induction spare generalizing attempt with
  | zero =>
    rw [Activity.tryFrom]
    apply (hop attempt).bind
    rintro (e | a)
    · show Uses p (if !e.retryable then _ else _)
      split <;> trivial
    · trivial
  | succ spare ih =>
    rw [Activity.tryFrom]
    apply (hop attempt).bind
    rintro (e | a)
    · show Uses p (if !e.retryable then _ else _)
      split
      · trivial
      · -- the pause ends in a cancellation, or in the next attempt
        intro cut
        cases cut with
        | true => trivial
        | false => exact ih (attempt + 1)
    · trivial

theorem Uses.retrying {p : Call → Prop} {op : Nat → Activity (Except Error α)}
    (hop : ∀ attempt, (op attempt).Uses p) (policy : RetryPolicy) (name : String) :
    (retrying policy name op).Uses p :=
  Uses.tryFrom hop policy name _ _

end Activity

end DiskWatch
