/-
DiskWatch/Duration.lean

Lengths of time in whole nanoseconds.  The greatest one has 2^64 - 1 seconds
and 999 999 999 nanoseconds; the type carries this bound, and multiplication
stops at it (`nanos_times`).

`render` writes a length in the largest unit of which it holds at least one,
with as many decimals as it needs.
-/
import DiskWatch.Text.Number

namespace DiskWatch

/-- The nanoseconds of a second. -/
def nanosPerSecond : Nat := 1_000_000_000

/-- The greatest length of time, in nanoseconds. -/
def Duration.maxNanos : Nat := UInt64.size * nanosPerSecond - 1

/-- A length of time. -/
structure Duration where
  nanos : Nat
  nanos_le : nanos ≤ Duration.maxNanos
  deriving DecidableEq, Repr

namespace Duration

/-- The length of `n` nanoseconds, or the greatest one if that is more. -/
def clamp (n : Nat) : Duration := ⟨min n maxNanos, Nat.min_le_right ..⟩

/-- The length of a number of seconds. -/
def ofSecs (s : UInt64) : Duration :=
  ⟨s.toNat * nanosPerSecond, by
    have := s.toNat_lt
    unfold maxNanos nanosPerSecond UInt64.size
    omega⟩

/-- The length of a number of milliseconds. -/
def ofMillis (ms : Nat) : Duration := clamp (ms * 1_000_000)

/-- No time at all. -/
def zero : Duration := ⟨0, Nat.zero_le _⟩

/-- The whole seconds. -/
def secs (d : Duration) : Nat := d.nanos / nanosPerSecond

/-- The nanoseconds beyond the whole seconds. -/
def subsecNanos (d : Duration) : Nat := d.nanos % nanosPerSecond

/-- The whole milliseconds. -/
def millis (d : Duration) : Nat := d.nanos / 1_000_000

/-- The multiple of a length, or the greatest one if that is more. -/
def times (d : Duration) (n : Nat) : Duration := clamp (d.nanos * n)

/-- Half of a length, rounded down. -/
def half (d : Duration) : Duration :=
  ⟨d.nanos / 2, Nat.le_trans (Nat.div_le_self ..) d.nanos_le⟩

instance : LT Duration := ⟨fun a b => a.nanos < b.nanos⟩
instance : LE Duration := ⟨fun a b => a.nanos ≤ b.nanos⟩
instance (a b : Duration) : Decidable (a < b) := inferInstanceAs (Decidable (a.nanos < b.nanos))
instance (a b : Duration) : Decidable (a ≤ b) := inferInstanceAs (Decidable (a.nanos ≤ b.nanos))
instance : Max Duration := ⟨fun a b => if a ≤ b then b else a⟩
instance : Min Duration := ⟨fun a b => if a ≤ b then a else b⟩

@[simp] theorem nanos_times (d : Duration) (n : Nat) :
    (d.times n).nanos = min (d.nanos * n) maxNanos := rfl

@[simp] theorem nanos_half (d : Duration) : d.half.nanos = d.nanos / 2 := rfl

@[simp] theorem nanos_ofSecs (s : UInt64) : (ofSecs s).nanos = s.toNat * nanosPerSecond := rfl

theorem lt_def {a b : Duration} : a < b ↔ a.nanos < b.nanos := Iff.rfl

theorem le_def {a b : Duration} : a ≤ b ↔ a.nanos ≤ b.nanos := Iff.rfl

theorem ext_nanos {a b : Duration} (h : a.nanos = b.nanos) : a = b := by
  cases a; cases b; simp_all

theorem nanos_max (a b : Duration) : (max a b).nanos = max a.nanos b.nanos := by
  show (if a ≤ b then b else a).nanos = _
  by_cases h : a ≤ b
  · rw [if_pos h]; exact (Nat.max_eq_right h).symm
  · rw [if_neg h]; exact (Nat.max_eq_left (Nat.le_of_lt (Nat.lt_of_not_le h))).symm

theorem nanos_min (a b : Duration) : (min a b).nanos = min a.nanos b.nanos := by
  show (if a ≤ b then a else b).nanos = _
  by_cases h : a ≤ b
  · rw [if_pos h]; exact (Nat.min_eq_left h).symm
  · rw [if_neg h]; exact (Nat.min_eq_right (Nat.le_of_lt (Nat.lt_of_not_le h))).symm

/-! ### Other measures -/

/-- The milliseconds as a 64-bit word, which is what a log line has room for. -/
def millisWord (d : Duration) : UInt64 := UInt64.ofNat d.millis

/-- The seconds as a double: the nearest double to the whole seconds, plus
that of the rest. -/
def toSeconds (d : Duration) : Float :=
  (UInt64.ofNat d.secs).toFloat + (UInt64.ofNat d.subsecNanos).toFloat / 1.0e9

/-! ### Text -/

/-- The digits of a fraction of `places` places, without trailing zeros. -/
def fractionDigits (places fraction : Nat) : List Char :=
  let ds := Text.decimal fraction
  let padded := List.replicate (places - ds.length) '0' ++ ds
  (padded.reverse.dropWhile (· == '0')).reverse

/-- A number of units and a fraction of `places` places, then the unit. -/
def withUnit (whole places fraction : Nat) (unit : String) : String :=
  let ds := fractionDigits places fraction
  Text.showNat whole ++ (if ds.isEmpty then "" else "." ++ String.ofList ds) ++ unit

/-- The length in its largest unit. -/
def render (d : Duration) : String :=
  if nanosPerSecond ≤ d.nanos then withUnit d.secs 9 d.subsecNanos "s"
  else if 1_000_000 ≤ d.nanos then withUnit (d.nanos / 1_000_000) 6 (d.nanos % 1_000_000) "ms"
  else if 1_000 ≤ d.nanos then withUnit (d.nanos / 1_000) 3 (d.nanos % 1_000) "µs"
  else Text.showNat d.nanos ++ "ns"

end Duration

end DiskWatch
