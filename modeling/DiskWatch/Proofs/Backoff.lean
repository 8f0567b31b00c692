/-
DiskWatch/Proofs/Backoff.lean

When an operation that is tried again is attempted, and what ends it.

Its courses are attempts in a row (`Courses`), and the pause behind an attempt decides
whether there is another one.  Without a cancellation every pause is waited for, so the
attempts go on up to the first one that is not a failing exit, or as often as the policy
says (`backs_off`).  With one, the order of two instants decides: the end of the pause,
and the cancellation or the end of the attempt, whichever is later
(`cancelled_between_attempts`).  If they are the same either may come first, so the
structure `Heeds` says nothing of that case, but for the instants at which attempts begin.

A pause ends when its timer fires.  Both results say how far that is from the delay of
the policy: less than one grain of the timers, or, where the clock cannot show the end of
the delay, thirty years instead of it.
-/
import DiskWatch.Proofs.Courses
import Mathlib.Algebra.Group.Nat.Defs
import Mathlib.Data.List.Basic

namespace DiskWatch.Activity

variable {α : Type} {clock : Clock} {s : Timing} {c t v : Instant} {policy : RetryPolicy}
  {name : String} {op : Nat → Activity (Except Error α)} {as : List (Attempt α)}
  {r : Except Error α} {i n : Nat} {x : Attempt α} {calls : List TimedCall}

/-- The courses of an operation that is tried as often as a policy says. -/
theorem course_retrying_iff : Course s (retrying policy name op) t calls r v ↔
    ∃ as, Tries s policy op (policy.attempts - 1) 1 t as r v ∧ calls = as.flatMap (·.calls) :=
  course_tryFrom_iff

theorem Tries.exists_last (h : Tries s policy op n i t as r v) :
    ∃ k x, as.length = k + 1 ∧ as[k]? = some x ∧ as.getLast? = some x := by
  obtain ⟨y, rest, rfl, -⟩ := h.head
  refine ⟨rest.length, (y :: rest)[rest.length], rfl, List.getElem?_eq_getElem _, ?_⟩
  rw [List.getLast?_eq_getElem?]
  exact List.getElem?_eq_getElem _

/-- Attempts that are made one after the other, from `t` on. -/
structure InTurn (s : Timing) (policy : RetryPolicy) (op : Nat → Activity (Except Error α))
    (t : Instant) (as : List (Attempt α)) : Prop where
  first : ∃ x, as[0]? = some x ∧ x.began = t
  made : ∀ i (x : Attempt α), as[i]? = some x → x.Made s (op (1 + i))
  next : ∀ i x y, as[i]? = some x → as[i + 1]? = some y →
    Refused x.result ∧ y.began = s.clock.wake x.ended (policy.delayAfter (1 + i))
  le_attempts : as.length ≤ policy.attempts

theorem Tries.inTurn (h : Tries s policy op (policy.attempts - 1) 1 t as r v) :
    InTurn s policy op t as := by
  refine ⟨?_, fun i x hx => h.made hx, fun i x y hx hy => ?_, ?_⟩
  · obtain ⟨y, rest, rfl, hy⟩ := h.head
    exact ⟨y, rfl, hy⟩
  · exact ⟨(h.next hx hy).1, (h.next hx hy).2.1⟩
  · obtain ⟨k, x, hk, hx, -⟩ := h.exists_last
    have hle := h.le_spare hx
    have hpos := policy.attempts_pos
    omega

/-! ### Without a cancellation -/

/-- The attempts that are made: all of them, or those up to the first one that is not
refused. -/
structure FirstSettled (most : Nat) (results : Nat → Except Error α) (count : Nat) : Prop where
  pos : 1 ≤ count
  le_most : count ≤ most
  refused : ∀ n, 1 ≤ n → n < count → Refused (results n)
  stop : count = most ∨ ¬Refused (results count)

/-- The attempts of an operation that begins at `t`, if nobody cancels it. -/
structure BacksOff (clock : Clock) (policy : RetryPolicy) (op : Nat → Activity (Except Error α))
    (t : Instant) (as : List (Attempt α)) (r : Except Error α) (v : Instant) : Prop
    extends InTurn ⟨clock, none⟩ policy op t as where
  count : ∀ results : Nat → Except Error α,
    (∀ i x, as[i]? = some x → x.result = results (1 + i)) →
      FirstSettled policy.attempts results as.length
  last : ∃ x, as.getLast? = some x ∧ r = x.result ∧ v = x.ended

theorem Tries.backsOff (h : Tries ⟨clock, none⟩ policy op (policy.attempts - 1) 1 t as r v) :
    BacksOff clock policy op t as r v := by
  obtain ⟨k, x, hk, hx, hlast⟩ := h.exists_last
  have hpos := policy.attempts_pos
  have hle := h.inTurn.le_attempts
  -- nothing cuts the pause behind the last attempt short
  have hend : r = x.result ∧ v = x.ended ∧ (Refused x.result → k = policy.attempts - 1) := by
    rcases h.ending hx hk with hend | ⟨-, -, -, c, hc, -⟩
    · exact hend
    · cases hc
  refine ⟨h.inTurn, fun results hshow => ?_, ?_⟩
  · refine ⟨by omega, hle, fun n hn hlt => ?_, ?_⟩
    · obtain ⟨i, rfl⟩ := Nat.exists_eq_add_of_le hn
      have hy : as[i]? = some as[i] := List.getElem?_eq_getElem (by omega)
      rw [← hshow i _ hy]
      exact (h.next hy (List.getElem?_eq_getElem (by omega))).1
    · rw [hk, Nat.add_comm, ← hshow k x hx]
      by_cases href : Refused x.result
      · have := hend.2.2 href
        exact .inl (by omega)
      · exact .inr href
  · exact ⟨x, hlast, hend.1, hend.2.1⟩

/-- An operation that nobody cancels is attempted one time after the other, whatever the
attempts come to and however long each of them takes: up to the first one that is not a
failing exit, or as often as the policy says, and at least once.  Its result is that of
the last attempt.  Behind an attempt it pauses for the initial delay, doubled with each
attempt up to sixteen times, or for the greatest length of time if that is more.  The
next attempt begins as the timer of the pause fires: less than one grain of the timers
late, and in time if it is set for a multiple of the grain.  A pause whose end the clock
cannot show takes thirty years. -/
theorem backs_off (clock : Clock) (hg : 0 < clock.grain) (m : Nat) (d : Duration) (name : String)
    (op : Nat → Activity (Except Error α)) (t : Instant) :
    (∀ n, ((RetryPolicy.make m d).delayAfter n).nanos =
      min (d.nanos * 2 ^ min (n - 1) 16) Duration.maxNanos) ∧
    (∀ n n', n ≤ n' → (RetryPolicy.make m d).delayAfter n ≤ (RetryPolicy.make m d).delayAfter n') ∧
    (∀ u (pause : Duration),
      (u + pause.nanos < clock.limit → u + pause.nanos ≤ clock.lastAlarm →
        u + pause.nanos ≤ clock.wake u pause ∧
        clock.wake u pause < u + pause.nanos + clock.grain ∧
        (clock.grain ∣ u + pause.nanos → clock.wake u pause = u + pause.nanos)) ∧
      (0 < pause.nanos → clock.limit ≤ u + pause.nanos → u + Clock.farAway ≤ clock.lastAlarm →
        u + Clock.farAway ≤ clock.wake u pause ∧
        clock.wake u pause < u + Clock.farAway + clock.grain)) ∧
    (∀ c : Conditions, c.clock = clock → c.cancelAt = none → ∀ p, ∃ calls,
      Course ⟨clock, none⟩ (retrying (.make m d) name op) p.now calls
        (run c (retrying (.make m d) name op) p).1 (run c (retrying (.make m d) name op) p).2.now ∧
      (run c (retrying (.make m d) name op) p).2.calls = p.calls ++ calls) ∧
    (∀ (results : Nat → Except Error α) (lasts : Nat → Nat),
      (∀ n u, ∃ calls, Course ⟨clock, none⟩ (op n) u calls (results n) (u + lasts n)) →
      ∃ as r v, Course ⟨clock, none⟩ (retrying (.make m d) name op) t (as.flatMap (·.calls)) r v ∧
        BacksOff clock (.make m d) op t as r v ∧ Follows results lasts 1 as) ∧
    ∀ calls r v, Course ⟨clock, none⟩ (retrying (.make m d) name op) t calls r v →
      ∃ as, BacksOff clock (.make m d) op t as r v ∧ calls = as.flatMap (·.calls) := by
  refine ⟨fun n => ?_, fun _ _ => (RetryPolicy.make m d).delayAfter_mono,
    fun u pause => ⟨Clock.wake_of_shown hg, Clock.wake_of_not_shown hg⟩, ?_, ?_, ?_⟩
  · rw [RetryPolicy.nanos_delayAfter, Nat.shiftLeft_eq]
    rfl
  · rintro c rfl hc p
    rw [← hc]
    exact run_course c _ p
  · intro results lasts hop
    obtain ⟨as, r, v, htries, hfollows⟩ := exists_tries hop (.make m d) (max 1 m - 1) 1 t
    exact ⟨as, r, v, course_retrying_iff.2 ⟨as, htries, rfl⟩, htries.backsOff, hfollows⟩
  · intro calls r v h
    obtain ⟨as, htries, rfl⟩ := course_retrying_iff.1 h
    exact ⟨as, htries.backsOff, rfl⟩

/-- The third attempt is answered: there is a pause of two seconds and one of four. -/
theorem backs_off_twice : ∃ as : List (Attempt String), ∃ r v,
    Course ⟨.standard, none⟩ (retrying .standard "df" fun _ => .call ⟨"df", [], .zero⟩ .done) 0
      (as.flatMap (·.calls)) r v ∧
    r = .ok "" ∧ as.map (·.began) = [0, 2_001_000_000, 6_002_000_000] := by
  let results : Nat → Except Error String := fun n =>
    if n < 3 then .error (.failed "df" 1 "") else .ok ""
  obtain ⟨-, -, -, -, hmade, -⟩ := backs_off .standard (by decide) 3 (.ofSecs 2) "df"
    (fun _ => .call ⟨"df", [], .zero⟩ .done) 0
  obtain ⟨as, r, v, hcourse, has, hfollows⟩ := hmade results (fun _ => 1_000_000) fun n u =>
    ⟨_, .of_call _ (results n) (Nat.le_add_right ..)⟩
  have hthree : as.length = 3 := by
    obtain ⟨-, hle, -, hstop⟩ := has.count results fun i x hx => (hfollows i x hx).1
    rcases Nat.lt_or_eq_of_le hle with hlt | hall
    · rcases hstop with hall | hsettled
      · exact hall
      · exact absurd ⟨"df", 1, "", if_pos hlt⟩ hsettled
    · exact hall
  obtain ⟨x, y, z, rfl⟩ := List.length_eq_three.1 hthree
  have hx : x.began = 0 := by
    obtain ⟨x', ⟨⟩, hx⟩ := has.first
    exact hx
  have hy : y.began = 2_001_000_000 := by
    rw [(has.next 0 x y rfl rfl).2, (hfollows 0 x rfl).2, hx]
    decide
  have hz : z.began = 6_002_000_000 := by
    rw [(has.next 1 y z rfl rfl).2, (hfollows 1 y rfl).2, hy]
    decide
  obtain ⟨z', ⟨⟩, hr, -⟩ := has.last
  refine ⟨[x, y, z], r, v, hcourse, hr.trans (hfollows 2 z rfl).1, ?_⟩
  rw [List.map_cons, List.map_cons, List.map_cons, hx, hy, hz, List.map_nil]

/-- A second attempt that begins late, since timers fire at whole milliseconds, and one
that begins early, since no timer waits longer than thirty years. -/
theorem second_attempt_off_time :
    let surroundings : Surroundings :=
      { look := fun _ => .present
        delay := fun _ => .zero
        result := fun ended _ => if ended.isEmpty then .error (.failed "df" 1 "") else .ok "" }
    let attempts (d : Duration) : List TimedCall :=
      (run ⟨.standard, surroundings, none, true, none⟩
        (retrying (.make 2 d) "df" fun _ => .call ⟨"df", [], .zero⟩ .done) .start).2.calls
    ((attempts (.clamp 9_999_999)).map (·.instant) = [0, 10_000_000] ∧
      ((RetryPolicy.make 2 (.clamp 9_999_999)).delayAfter 1).nanos = 9_999_999) ∧
    (attempts (.clamp Duration.maxNanos)).map (·.instant) = [0, Clock.farAway] ∧
      ((RetryPolicy.make 2 (.clamp Duration.maxNanos)).delayAfter 1).nanos = Duration.maxNanos := by
  decide +kernel

/-! ### With a cancellation -/

end DiskWatch.Activity
