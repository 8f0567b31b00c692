/-
DiskWatch/Clock.lean

Time as timers see it.  An instant is a number of nanoseconds since the start.
A timer fires at the first multiple of the clock's grain that is not before the
instant it waits for, and it has a last instant of its own.  A length of time
that leads past the end of the clock stands for thirty years.

Main results: a timer is not early (`le_alarm`) and late by less than a grain
(`alarm_lt`), and a wait for multiples of the grain is not late at all (`wake_le`).
When a single wait ends is said by `wake_of_shown` and `wake_of_not_shown`.  A beat that
is noticed in time is followed by another (`nextBeat?_of_le`), one that is noticed too
late only if the clock shows the instant one period from now
(`nextBeat?_delay_eq_none_iff`).  Where missed beats are skipped, the beats keep to the
multiples of their period (`of_nextBeat?_skip`).
-/
import DiskWatch.Ledger

namespace DiskWatch

/-- How timers fire. -/
structure Clock where
  /-- Timers fire at multiples of this many nanoseconds. -/
  grain : Nat
  /-- The first instant that the clock cannot show. -/
  limit : Instant
  /-- The last instant at which a timer fires. -/
  lastAlarm : Instant
  deriving DecidableEq, Repr

namespace Clock

/-- Timers of one millisecond on a clock of 64-bit seconds, which a machine
reads some months after its zero. -/
def standard : Clock :=
  { grain := 1_000_000
    limit := ((1 <<< 63) - (1 <<< 24)) * nanosPerSecond
    lastAlarm := (UInt64.size - 3) * 1_000_000 }

/-- Thirty years. -/
def farAway : Nat := 86400 * 365 * 30 * nanosPerSecond

/-- The instant some time after another one, if the clock can show it. -/
def later? (c : Clock) (now : Instant) (d : Duration) : Option Instant :=
  if now + d.nanos < c.limit then some (now + d.nanos) else none

/-- The instant some time after another one, or one far away. -/
def laterOrFar (c : Clock) (now : Instant) (d : Duration) : Instant :=
  (c.later? now d).getD (now + farAway)

/-- When a timer for an instant fires. -/
def alarm (c : Clock) (t : Instant) : Instant :=
  min ((t + c.grain - 1) / c.grain * c.grain) c.lastAlarm

/-- When a wait that starts now ends. -/
def wake (c : Clock) (now : Instant) (d : Duration) : Instant :=
  if d.nanos = 0 then now else max now (c.alarm (c.laterOrFar now d))

/-- How late a beat may be noticed before it counts as missed. -/
def tolerance : Nat := 5 * 1_000_000

/-- What becomes of the beats after one that was missed. -/
inductive MissedBeats
  /-- They are counted from the instant at which that was noticed. -/
  | delay
  /-- Those that have passed are left out. -/
  | skip
  deriving DecidableEq, Repr

/-- The beat after one that was missed.  There is none if the clock cannot show the
instant one period from now, or if what has passed of the period is too long to be told. -/
def afterMissed? (c : Clock) (missed : MissedBeats) (due now : Instant) (period : Duration) :
    Option Instant := do
  let next ← c.later? now period
  match missed with
  | .delay => some next
  | .skip =>
    let passed := (now - due) % period.nanos
    if passed < UInt64.size then some (next - passed) else none

/-- The beat after one that was due at `due` and is noticed now. -/
def nextBeat? (c : Clock) (missed : MissedBeats) (due now : Instant) (period : Duration) :
    Option Instant :=
  if due + tolerance < now then c.afterMissed? missed due now period
  else some ((c.later? due period).getD (now + farAway))

/-- The length of time between two instants. -/
def since (start now : Instant) : Duration := .clamp (now - start)

/-! ### Laws -/

variable {c : Clock} {missed : MissedBeats} {t u due now next : Instant} {d period : Duration}

theorem later?_eq_some_iff :
    c.later? now d = some t ↔ now + d.nanos < c.limit ∧ now + d.nanos = t := by
  rw [later?, Option.ite_none_right_eq_some, Option.some.injEq]

theorem later?_eq_none_iff : c.later? now d = none ↔ c.limit ≤ now + d.nanos := by
  rw [later?, ite_eq_right_iff, ← Nat.not_lt]
  exact forall_congr' fun _ => ⟨fun h => absurd h (Option.some_ne_none _), False.elim⟩

theorem alarm_mono (h : t ≤ u) : c.alarm t ≤ c.alarm u := by
  refine Nat.le_min.2 ⟨Nat.le_trans (Nat.min_le_left ..) ?_, Nat.min_le_right ..⟩
  apply Nat.mul_le_mul_right
  exact Nat.div_le_div_right (Nat.sub_le_sub_right (Nat.add_le_add_right h _) 1)

/-- A timer fires at the next multiple of the grain, up to the last alarm. -/
theorem exists_dvd (hg : 0 < c.grain) (t : Instant) :
    ∃ u, c.grain ∣ u ∧ t ≤ u ∧ u < t + c.grain ∧ c.alarm t = min u c.lastAlarm := by
  refine ⟨_, Nat.dvd_mul_left .., ?_, ?_, rfl⟩
  · have hlt := Nat.lt_div_mul_add (a := t + c.grain - 1) hg
    rw [Nat.sub_lt_iff_lt_add (Nat.add_pos_right t hg), Nat.add_right_comm] at hlt
    exact Nat.le_of_lt_succ (Nat.lt_of_add_lt_add_right hlt)
  · apply Nat.lt_of_le_of_lt (Nat.div_mul_le_self ..)
    exact Nat.sub_lt (Nat.add_pos_right t hg) Nat.one_pos

/-- A timer is late by less than a grain. -/
theorem alarm_lt (hg : 0 < c.grain) : c.alarm t < t + c.grain := by
  obtain ⟨u, -, -, hlt, halarm⟩ := exists_dvd hg t
  rw [halarm]
  exact Nat.lt_of_le_of_lt (Nat.min_le_left ..) hlt

/-- A timer is not early, up to the last alarm. -/
theorem le_alarm (hg : 0 < c.grain) (h : t ≤ c.lastAlarm) : t ≤ c.alarm t := by
  obtain ⟨u, -, hle, -, halarm⟩ := exists_dvd hg t
  rw [halarm]
  exact Nat.le_min.2 ⟨hle, h⟩

/-- A multiple of the grain that is not before an instant is not before its alarm. -/
theorem alarm_le (hg : 0 < c.grain) (hu : c.grain ∣ u) (h : t ≤ u) : c.alarm t ≤ u := by
  obtain ⟨k, rfl⟩ := hu
  apply Nat.le_trans (Nat.min_le_left ..)
  rw [Nat.mul_comm c.grain]
  apply Nat.mul_le_mul_right
  rw [← Nat.lt_succ_iff, Nat.div_lt_iff_lt_mul hg, Nat.succ_mul, Nat.mul_comm k]
  exact Nat.lt_of_lt_of_le (Nat.sub_lt (Nat.add_pos_right t hg) Nat.one_pos)
    (Nat.add_le_add_right h _)

/-- A timer for a multiple of the grain is not late. -/
theorem alarm_of_dvd (hg : 0 < c.grain) (ht : c.grain ∣ t) (h : t ≤ c.lastAlarm) :
    c.alarm t = t :=
  Nat.le_antisymm (alarm_le hg ht (Nat.le_refl t)) (le_alarm hg h)

theorem le_wake : now ≤ c.wake now d := by
  rw [wake]
  split
  · exact Nat.le_refl now
  · exact Nat.le_max_left ..

/-- Where limits and pauses are multiples of the grain, rounding does not add up. -/
theorem wake_le (hg : 0 < c.grain) (hu : c.grain ∣ u) (hd : c.grain ∣ d.nanos) (h : now ≤ u)
    (hlimit : u + d.nanos < c.limit) : c.wake now d ≤ u + d.nanos := by
  have hle : now + d.nanos ≤ u + d.nanos := Nat.add_le_add_right h _
  have hnow : now ≤ u + d.nanos := Nat.le_trans h (Nat.le_add_right ..)
  rw [wake]
  split
  · exact hnow
  · rw [laterOrFar, later?, if_pos (Nat.lt_of_le_of_lt hle hlimit), Option.getD_some]
    exact Nat.max_le.2 ⟨hnow, alarm_le hg (Nat.dvd_add hu hd) hle⟩

/-- A wait is not cut short, up to the last alarm and for thirty years. -/
theorem le_wake_of_le (hg : 0 < c.grain) (h : u ≤ now + d.nanos) (hlast : u ≤ c.lastAlarm)
    (hfar : u ≤ now + farAway) : u ≤ c.wake now d := by
  have hlate : u ≤ c.laterOrFar now d := by
    rw [laterOrFar, later?]
    split
    · exact h
    · exact hfar
  rw [wake]
  split
  · next hd =>
    rw [hd] at h
    exact h
  · apply Nat.le_trans (le_alarm hg hlast)
    exact Nat.le_trans (alarm_mono hlate) (Nat.le_max_right ..)

/-- A wait is not cut short and ends less than a grain late, and in time if it is for a
multiple of the grain. -/
theorem wake_bounds (hg : 0 < c.grain) (hd : 0 < d.nanos) (h : c.laterOrFar now d ≤ c.lastAlarm)
    (hnow : now ≤ c.laterOrFar now d) : c.laterOrFar now d ≤ c.wake now d ∧
      c.wake now d < c.laterOrFar now d + c.grain ∧
      (c.grain ∣ c.laterOrFar now d → c.wake now d = c.laterOrFar now d) := by
  have hle := le_alarm hg h
  have hwake : c.wake now d = c.alarm (c.laterOrFar now d) := by
    rw [wake, if_neg (Nat.ne_of_gt hd)]
    exact Nat.max_eq_right (Nat.le_trans hnow hle)
  rw [hwake]
  exact ⟨hle, alarm_lt hg, fun hdvd => alarm_of_dvd hg hdvd h⟩

/-- A wait whose end the clock can show ends then, or less than a grain later. -/
theorem wake_of_shown (hg : 0 < c.grain) (hlimit : now + d.nanos < c.limit)
    (hlast : now + d.nanos ≤ c.lastAlarm) : now + d.nanos ≤ c.wake now d ∧
      c.wake now d < now + d.nanos + c.grain ∧
      (c.grain ∣ now + d.nanos → c.wake now d = now + d.nanos) := by
  rcases Nat.eq_zero_or_pos d.nanos with hd | hd
  · have hwake : c.wake now d = now := if_pos hd
    rw [hwake, hd]
    exact ⟨Nat.le_refl _, Nat.lt_add_of_pos_right hg, fun _ => rfl⟩
  · have hlater : c.laterOrFar now d = now + d.nanos := by
      rw [laterOrFar, later?, if_pos hlimit, Option.getD_some]
    have hnow : now ≤ c.laterOrFar now d := hlater ▸ Nat.le_add_right ..
    have h := wake_bounds hg hd (hlater ▸ hlast) hnow
    rwa [hlater] at h

/-- A wait whose end the clock cannot show takes thirty years, or less than a grain more. -/
theorem wake_of_not_shown (hg : 0 < c.grain) (hd : 0 < d.nanos)
    (hlimit : c.limit ≤ now + d.nanos) (hlast : now + farAway ≤ c.lastAlarm) :
    now + farAway ≤ c.wake now d ∧ c.wake now d < now + farAway + c.grain := by
  have hfar : c.laterOrFar now d = now + farAway := by
    rw [laterOrFar, later?, if_neg (Nat.not_lt.2 hlimit), Option.getD_none]
  have hnow : now ≤ c.laterOrFar now d := hfar ▸ Nat.le_add_right ..
  have h := wake_bounds hg hd (hfar ▸ hlast) hnow
  rw [hfar] at h
  exact ⟨h.1, h.2.1⟩

/-! ### Beats -/

/-- A beat that is noticed in time is followed by another. -/
theorem nextBeat?_of_le (h : now ≤ due + tolerance) :
    c.nextBeat? missed due now period = some ((c.later? due period).getD (now + farAway)) :=
  if_neg (Nat.not_lt.2 h)

/-- Beats that are delayed end where one is noticed too late and the clock cannot show the
instant one period from now. -/
theorem nextBeat?_delay_eq_none_iff : c.nextBeat? .delay due now period = none ↔
    due + tolerance < now ∧ c.limit ≤ now + period.nanos := by
  rw [nextBeat?, ← later?_eq_none_iff]
  split
  · next hlate =>
    rw [and_iff_right hlate]
    show (c.later? now period).bind some = none ↔ _
    rw [Option.bind_fun_some]
  · next hlate => exact iff_of_false (Option.some_ne_none _) fun h => hlate h.1

/-- A gap and one period more, without what has passed of the last one. -/
theorem add_sub_mod (gap p : Nat) : gap + p - gap % p = (gap / p + 1) * p := by
  have hdiv := Nat.div_add_mod gap p
  rw [Nat.succ_mul, Nat.mul_comm]
  omega

/-- Beats that are skipped do not shift the following ones.  After a beat that was missed
comes the next multiple of the period, counted from that beat. -/
theorem of_nextBeat?_skip (hp : 0 < period.nanos) (hlate : due + tolerance < now)
    (h : c.nextBeat? .skip due now period = some next) :
    (∃ k, next = due + k * period.nanos) ∧ now < next ∧ next ≤ now + period.nanos := by
  obtain ⟨gap, rfl⟩ := Nat.exists_eq_add_of_le
    (Nat.le_trans (Nat.le_add_right due tolerance) (Nat.le_of_lt hlate))
  rw [nextBeat?, if_pos hlate, afterMissed?] at h
  obtain ⟨_, hlater, hnext⟩ := Option.bind_eq_some_iff.1 h
  obtain ⟨-, rfl⟩ := later?_eq_some_iff.1 hlater
  obtain ⟨-, hnext⟩ := Option.ite_none_right_eq_some.1 hnext
  rw [Nat.add_sub_cancel_left] at hnext
  obtain rfl := Option.some.inj hnext
  have hmod : gap % period.nanos < period.nanos := Nat.mod_lt _ hp
  have hle : gap % period.nanos ≤ gap + period.nanos :=
    Nat.le_trans (Nat.mod_le _ _) (Nat.le_add_right _ _)
  refine ⟨⟨gap / period.nanos + 1, ?_⟩, ?_, Nat.sub_le _ _⟩
  · rw [Nat.add_assoc, Nat.add_sub_assoc hle, add_sub_mod]
  · exact Nat.lt_sub_of_add_lt (Nat.add_lt_add_left hmod _)

end Clock

end DiskWatch
