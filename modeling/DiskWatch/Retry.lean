/-
DiskWatch/Retry.lean

How often a measurement is tried and how long the pauses are.  The first pause
is the initial delay; each further one is twice as long, up to the seventeenth,
and from then on they stay the same.

Main results: how long each pause is (`nanos_delayAfter`), that the pauses never get
shorter (`delayAfter_mono`), and that where each of them is a multiple of some length
so are all of them together (`dvd_pausesFrom`).
-/
import DiskWatch.Duration

namespace DiskWatch

/-- How often to try, and the first pause.  There is at least one attempt. -/
structure RetryPolicy where
  attempts : Nat
  initialDelay : Duration
  attempts_pos : 1 ≤ attempts
  deriving DecidableEq, Repr

namespace RetryPolicy

/-- A policy; no attempt at all counts as one. -/
def make (attempts : Nat) (initialDelay : Duration) : RetryPolicy :=
  ⟨max 1 attempts, initialDelay, Nat.le_max_left ..⟩

/-- Three attempts, and two seconds before the second one. -/
def standard : RetryPolicy := make 3 (.ofSecs 2)

/-- A single attempt. -/
def once : RetryPolicy := make 1 .zero

/-- How often the initial delay is doubled for the pause after an attempt. -/
def doublings (attempt : Nat) : Nat := min (attempt - 1) 16

/-- The pause after an attempt; attempts count from one. -/
def delayAfter (p : RetryPolicy) (attempt : Nat) : Duration :=
  p.initialDelay.times (1 <<< doublings attempt)

/-- The pauses after so many attempts in a row, in nanoseconds. -/
def pausesFrom (p : RetryPolicy) (attempt : Nat) : Nat → Nat
  | 0 => 0
  | count + 1 => (p.delayAfter attempt).nanos + p.pausesFrom (attempt + 1) count

/-- All pauses, in nanoseconds: there is one after each attempt but the last. -/
def pauses (p : RetryPolicy) : Nat := p.pausesFrom 1 (p.attempts - 1)

theorem pausesFrom_succ (p : RetryPolicy) (attempt count : Nat) :
    p.pausesFrom attempt (count + 1) =
      (p.delayAfter attempt).nanos + p.pausesFrom (attempt + 1) count := rfl

theorem delayAfter_le_pausesFrom (p : RetryPolicy) {attempt count i : Nat} (hle : attempt ≤ i)
    (hlt : i < attempt + count) : (p.delayAfter i).nanos ≤ p.pausesFrom attempt count := by
  induction count generalizing attempt with
  | zero => omega
  | succ count ih =>
    rw [pausesFrom_succ]
    rcases Nat.eq_or_lt_of_le hle with rfl | hgt
    · exact Nat.le_add_right ..
    · have hrest := @ih (attempt + 1) hgt (by omega)
      omega

theorem dvd_pausesFrom (p : RetryPolicy) {g attempt count : Nat}
    (h : ∀ i, attempt ≤ i → i < attempt + count → g ∣ (p.delayAfter i).nanos) :
    g ∣ p.pausesFrom attempt count := by
  induction count generalizing attempt with
  | zero => exact Nat.dvd_zero g
  | succ count ih =>
    rw [pausesFrom_succ]
    apply Nat.dvd_add
    · exact h attempt (Nat.le_refl attempt) (by omega)
    · exact ih fun i hle hlt => h i (by omega) (by omega)

/-- A pause is the initial delay, doubled after each attempt but the first, up to
sixteen times, or the greatest length of time if that is more. -/
theorem nanos_delayAfter (p : RetryPolicy) (attempt : Nat) :
    (p.delayAfter attempt).nanos =
      min (p.initialDelay.nanos <<< min (attempt - 1) 16) Duration.maxNanos := by
  rw [delayAfter, Duration.nanos_times, Nat.one_shiftLeft, doublings, ← Nat.shiftLeft_eq]

/-- The pauses never get shorter. -/
theorem delayAfter_mono (p : RetryPolicy) {a b : Nat} (h : a ≤ b) :
    p.delayAfter a ≤ p.delayAfter b := by
  have hd : doublings a ≤ doublings b := by unfold doublings; omega
  have hp : 1 <<< doublings a ≤ 1 <<< doublings b := by
    rw [Nat.one_shiftLeft, Nat.one_shiftLeft]
    exact Nat.pow_le_pow_right (by decide) hd
  rw [Duration.le_def]
  simp only [delayAfter, Duration.nanos_times]
  have := Nat.mul_le_mul_left p.initialDelay.nanos hp
  omega

end RetryPolicy

end DiskWatch
