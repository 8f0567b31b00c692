/-
DiskWatch/Proofs/Courses.lean

The courses that an activity can take in time.  Looks and calls take as long as they
take, and are answered in any way.  A pause ends when its timer fires or when the
cancellation comes, whichever is first, and in either way if both come at once.  So a
course leaves open what a run is given: surroundings, and the order of events at one
instant.  Every run takes one of the courses (`run_course`).

The courses of an operation that is tried again are those of its attempts, one after
the other: each is made as a whole, and behind one that failed with a failing exit the
operation pauses, and goes on or ends as the pause does (`course_tryFrom_iff`).
Whatever the attempts come to and however long they take, there is such a course
(`exists_tries`).
-/
import DiskWatch.Alone

namespace DiskWatch.Activity

variable {α β : Type}

/-! ### Courses -/

/-- The clock of the timers, and the instant of the cancellation if there is one. -/
structure Timing where
  clock : Clock
  cancelAt : Option Instant

/-- How and when a pause that begins at `t` ends: because its time is over, or cut
short. -/
def PauseEnds (s : Timing) (t : Instant) (d : Duration) : Bool → Instant → Prop
  | false, u => u = s.clock.wake t d ∧ ∀ c, s.cancelAt = some c → s.clock.wake t d ≤ max t c
  | true, u => ∃ c, s.cancelAt = some c ∧ max t c ≤ s.clock.wake t d ∧ u = max t c

/-- The courses of an activity, each with the instant at which it begins, the calls that
are made, the result and the instant at which it ends. -/
inductive Course (s : Timing) :
    Activity α → Instant → List TimedCall → α → Instant → Prop
  | done (a : α) (t : Instant) : Course s (done a) t [] a t
  | look {path : Path} {next : PathStatus → Activity α} {t u v : Instant}
      {calls : List TimedCall} {a : α} (status : PathStatus) (hu : t ≤ u)
      (h : Course s (next status) u calls a v) : Course s (look path next) t calls a v
  | call {c : Call} {next : Except Error String → Activity α} {t u v : Instant}
      {calls : List TimedCall} {a : α} (answer : Except Error String) (hu : t ≤ u)
      (h : Course s (next answer) u calls a v) : Course s (call c next) t (⟨t, c⟩ :: calls) a v
  | pause {length : Duration} {next : Bool → Activity α} {t u v : Instant}
      {calls : List TimedCall} {a : α} (cut : Bool) (hu : PauseEnds s t length cut u)
      (h : Course s (next cut) u calls a v) : Course s (pause length next) t calls a v
  | note {n : Note} {next : Activity α} {t v : Instant} {calls : List TimedCall} {a : α}
      (h : Course s next t calls a v) : Course s (note n next) t calls a v

variable {s : Timing} {t u v : Instant} {d : Duration} {calls : List TimedCall} {a : α}

/-- A pause ends in some way. -/
theorem exists_pauseEnds (s : Timing) (t : Instant) (d : Duration) :
    ∃ cut u, PauseEnds s t d cut u := by
  cases hc : s.cancelAt with
  | none => exact ⟨false, _, rfl, fun c he => nomatch hc.symm.trans he⟩
  | some c =>
    rcases Nat.le_total (max t c) (s.clock.wake t d) with h | h
    · exact ⟨true, _, c, hc, h, rfl⟩
    · refine ⟨false, _, rfl, fun c' he => ?_⟩
      obtain rfl := Option.some.inj (hc.symm.trans he)
      exact h

namespace Course

theorem done_iff {b : α} : Course s (.done b) t calls a v ↔ calls = [] ∧ a = b ∧ v = t := by
  constructor
  · rintro ⟨⟩
    exact ⟨rfl, rfl, rfl⟩
  · rintro ⟨rfl, rfl, rfl⟩
    exact .done a v

theorem note_iff {n : Note} {next : Activity α} :
    Course s (.note n next) t calls a v ↔ Course s next t calls a v := by
  constructor
  · rintro (_ | _ | _ | _ | h)
    exact h
  · exact .note

theorem pause_iff {next : Bool → Activity α} : Course s (.pause d next) t calls a v ↔
    ∃ cut u, PauseEnds s t d cut u ∧ Course s (next cut) u calls a v := by
  constructor
  · rintro (_ | _ | _ | ⟨cut, hu, h⟩)
    exact ⟨cut, _, hu, h⟩
  · rintro ⟨cut, u, hu, h⟩
    exact .pause cut hu h

/-- A course of two activities is a course of the first and then one of the second. -/
theorem bind_iff {x : Activity α} {k : α → Activity β} {b : β} :
    Course s (x.bind k) t calls b v ↔ ∃ front back a u, calls = front ++ back ∧
      Course s x t front a u ∧ Course s (k a) u back b v := by
  constructor
  · intro h
    induction x generalizing t calls with
    | done a => exact ⟨[], calls, a, t, rfl, .done a t, h⟩
    | look path next ih =>
      cases h with
      | look status hu h =>
        obtain ⟨front, back, a, u, rfl, hx, hk⟩ := ih status h
        exact ⟨front, back, a, u, rfl, .look status hu hx, hk⟩
    | call c next ih =>
      cases h with
      | call answer hu h =>
        obtain ⟨front, back, a, u, rfl, hx, hk⟩ := ih answer h
        exact ⟨⟨t, c⟩ :: front, back, a, u, rfl, .call answer hu hx, hk⟩
    | pause length next ih =>
      cases h with
      | pause cut hu h =>
        obtain ⟨front, back, a, u, rfl, hx, hk⟩ := ih cut h
        exact ⟨front, back, a, u, rfl, .pause cut hu hx, hk⟩
    | note n next ih =>
      obtain ⟨front, back, a, u, rfl, hx, hk⟩ := ih (note_iff.1 h)
      exact ⟨front, back, a, u, rfl, .note hx, hk⟩
  · rintro ⟨front, back, a, u, rfl, hx, hk⟩
    induction hx with
    | done a t => exact hk
    | look status hu _ ih => exact .look status hu (ih hk)
    | call answer hu _ ih => exact .call answer hu (ih hk)
    | pause cut hu _ ih => exact .pause cut hu (ih hk)
    | note _ ih => exact .note (ih hk)

/-- A call that is answered is a course. -/
theorem of_call (c : Call) (answer : Except Error String) (h : t ≤ u) :
    Course s (.call c .done) t [⟨t, c⟩] answer u :=
  .call answer h (.done answer u)

end Course

theorem pauseEnds_pauseEnd (c : Conditions) (t : Instant) (d : Duration) :
    PauseEnds ⟨c.clock, c.cancelAt⟩ t d (pauseEnd c t d).1 (pauseEnd c t d).2 := by
  have hgo : ∀ {k : Instant}, c.cancelAt = some k → c.clock.wake t d ≤ max t k →
      PauseEnds ⟨c.clock, c.cancelAt⟩ t d false (c.clock.wake t d) := by
    intro k hk hle
    refine ⟨rfl, fun k' hk' => ?_⟩
    obtain rfl := Option.some.inj (hk.symm.trans hk')
    exact hle
  unfold pauseEnd
  dsimp only
  cases hc : c.cancelAt with
  | none => exact ⟨rfl, nofun⟩
  | some k =>
    dsimp only
    rw [← hc]
    split
    · next hlt => exact ⟨k, hc, Nat.le_of_lt hlt, rfl⟩
    · next hlt =>
      split
      · next heq =>
        cases c.cancelFirst with
        | true => exact ⟨k, hc, Nat.le_of_eq heq, heq.symm⟩
        | false => exact hgo hc (Nat.le_of_eq heq.symm)
      · exact hgo hc (Nat.le_of_not_lt hlt)

/-- Every run of an activity takes one of its courses, and makes the calls of it. -/
theorem run_course (c : Conditions) (x : Activity α) (p : Progress) :
    ∃ calls, Course ⟨c.clock, c.cancelAt⟩ x p.now calls (run c x p).1 (run c x p).2.now ∧
      (run c x p).2.calls = p.calls ++ calls := by
  induction x generalizing p with
  | done a => exact ⟨[], .done a p.now, (List.append_nil _).symm⟩
  | look path next ih =>
    obtain ⟨calls, h, hcalls⟩ := ih _ p
    exact ⟨calls, .look _ (Nat.le_refl _) h, hcalls⟩
  | call k next ih =>
    obtain ⟨calls, h, hcalls⟩ := ih _ _
    refine ⟨_, .call _ Clock.le_wake h, hcalls.trans ?_⟩
    rw [List.append_assoc]
    rfl
  | pause d next ih =>
    obtain ⟨calls, h, hcalls⟩ := ih _ _
    exact ⟨calls, .pause _ (pauseEnds_pauseEnd c p.now d) h, hcalls⟩
  | note n next ih =>
    obtain ⟨calls, h, hcalls⟩ := ih _
    exact ⟨calls, .note h, hcalls⟩

/-! ### Attempts -/

/-- One attempt of an operation: from when to when, with which calls, to which result. -/
structure Attempt (α : Type) where
  began : Instant
  calls : List TimedCall
  result : Except Error α
  ended : Instant

/-- The attempt is a whole course of an activity. -/
def Attempt.Made (a : Attempt α) (s : Timing) (x : Activity (Except Error α)) : Prop :=
  Course s x a.began a.calls a.result a.ended

/-- A course is that of an attempt. -/
theorem Course.exists_attempt {x : Activity (Except Error α)} {r : Except Error α}
    (h : Course s x t calls r v) : ∃ a : Attempt α,
      a.began = t ∧ a.calls = calls ∧ a.result = r ∧ a.ended = v ∧ a.Made s x :=
  ⟨⟨t, calls, r, v⟩, rfl, rfl, rfl, rfl, h⟩

/-- The result is a failing exit of a program. -/
def Refused (r : Except Error α) : Prop :=
  ∃ program code stderr, r = .error (.failed program code stderr)

/-- Failing exits are what is tried again. -/
theorem refused_error_iff {e : Error} :
    Refused (.error e : Except Error α) ↔ e.retryable = true := by
  rw [Error.retryable_iff]
  constructor
  · rintro ⟨program, code, stderr, ⟨⟩⟩
    exact ⟨program, code, stderr, rfl⟩
  · rintro ⟨program, code, stderr, rfl⟩
    exact ⟨program, code, stderr, rfl⟩

theorem not_refused_ok (a : α) : ¬Refused (.ok a : Except Error α) := by
  rintro ⟨_, _, _, ⟨⟩⟩

/-- Attempts one after the other, from attempt `n` on with `spare` more attempts after
it, down to a result: the last attempt settles it, or a cancellation cuts the pause
behind it short. -/
inductive Tries (s : Timing) (policy : RetryPolicy) (op : Nat → Activity (Except Error α)) :
    (spare n : Nat) → Instant → List (Attempt α) → Except Error α → Instant → Prop
  | last {spare n : Nat} {a : Attempt α} {t : Instant} (ht : a.began = t) (ha : a.Made s (op n))
      (hr : Refused a.result → spare = 0) :
      Tries s policy op spare n t [a] a.result a.ended
  | cut {spare n : Nat} {a : Attempt α} {t v : Instant} (ht : a.began = t) (ha : a.Made s (op n))
      (hr : Refused a.result) (hp : PauseEnds s a.ended (policy.delayAfter n) true v) :
      Tries s policy op (spare + 1) n t [a] (.error .cancelled) v
  | again {spare n : Nat} {a : Attempt α} {t u v : Instant} {as : List (Attempt α)}
      {r : Except Error α} (ht : a.began = t) (ha : a.Made s (op n)) (hr : Refused a.result)
      (hp : PauseEnds s a.ended (policy.delayAfter n) false u)
      (h : Tries s policy op spare (n + 1) u as r v) :
      Tries s policy op (spare + 1) n t (a :: as) r v

variable {policy : RetryPolicy} {name : String} {op : Nat → Activity (Except Error α)}
  {spare n i : Nat} {as : List (Attempt α)} {x y : Attempt α} {r : Except Error α}

/-- What follows an attempt, by its result. -/
def behind (policy : RetryPolicy) (name : String) (op : Nat → Activity (Except Error α))
    (spare n : Nat) : Except Error α → Activity (Except Error α)
  | .ok a => done (.ok a)
  | .error e =>
    if !e.retryable then done (.error e)
    else match spare with
      | 0 => note (.event (.retriesExhausted name n e)) (done (.error e))
      | spare + 1 =>
        note (.event (.backingOff name n (policy.delayAfter n) e))
          (pause (policy.delayAfter n) fun cut =>
            if cut then done (.error .cancelled) else tryFrom policy name op spare (n + 1))

theorem tryFrom_eq (policy : RetryPolicy) (name : String) (op : Nat → Activity (Except Error α))
    (spare n : Nat) :
    tryFrom policy name op spare n = (op n).bind (behind policy name op spare n) := by
  rw [tryFrom]
  rfl

/-- A result settles the operation, or it is refused and a pause follows. -/
theorem course_behind_iff {result : Except Error α} :
    Course s (behind policy name op spare n result) t calls r v ↔
      (Refused result → spare = 0) ∧ calls = [] ∧ r = result ∧ v = t ∨
      ∃ less cut u, spare = less + 1 ∧ Refused result ∧
        PauseEnds s t (policy.delayAfter n) cut u ∧
        Course s (if cut then done (.error .cancelled)
          else tryFrom policy name op less (n + 1)) u calls r v := by
  cases result with
  | ok a => simp [behind, Course.done_iff, not_refused_ok]
  | error e =>
    rw [refused_error_iff]
    cases he : e.retryable with
    | false => simp [behind, he, Course.done_iff]
    | true =>
      cases spare with
      | zero => simp [behind, he, Course.note_iff, Course.done_iff]
      | succ less => simp [behind, he, Course.note_iff, Course.pause_iff]

/-- The courses of an operation that is tried are its attempts, one after the other. -/
theorem course_tryFrom_iff : Course s (tryFrom policy name op spare n) t calls r v ↔
    ∃ as, Tries s policy op spare n t as r v ∧ calls = as.flatMap (·.calls) := by
  constructor
  · intro h
    induction spare generalizing n t calls with
    | zero =>
      rw [tryFrom_eq] at h
      obtain ⟨front, back, result, u, rfl, hx, hrest⟩ := Course.bind_iff.1 h
      obtain ⟨a, ht, rfl, rfl, rfl, ha⟩ := hx.exists_attempt
      rcases course_behind_iff.1 hrest with ⟨hr, rfl, rfl, rfl⟩ | ⟨less, -, -, hless, -⟩
      · exact ⟨[a], .last ht ha hr, by simp⟩
      · cases hless
    | succ spare ih =>
      rw [tryFrom_eq] at h
      obtain ⟨front, back, result, u, rfl, hx, hrest⟩ := Course.bind_iff.1 h
      obtain ⟨a, ht, rfl, rfl, rfl, ha⟩ := hx.exists_attempt
      -- what follows the attempt says which of the three ways it goes on
      rcases course_behind_iff.1 hrest with
        ⟨hr, rfl, rfl, rfl⟩ | ⟨less, cut, w, hless, hr, hp, hrest⟩
      · exact ⟨[a], .last ht ha hr, by simp⟩
      · obtain rfl : spare = less := Nat.succ.inj hless
        cases cut with
        | true =>
          obtain ⟨rfl, rfl, rfl⟩ := Course.done_iff.1 hrest
          exact ⟨[a], .cut ht ha hr hp, by simp⟩
        | false =>
          obtain ⟨as, has, rfl⟩ := ih hrest
          exact ⟨a :: as, .again ht ha hr hp has, by simp⟩
  · rintro ⟨as, h, rfl⟩
    induction h with
    | @last spare n a t ht ha hr =>
      subst ht
      rw [tryFrom_eq]
      have hend : Course s (behind policy name op spare n a.result) a.ended [] a.result a.ended :=
        course_behind_iff.2 (.inl ⟨hr, rfl, rfl, rfl⟩)
      exact Course.bind_iff.2 ⟨a.calls, [], _, _, by simp, ha, hend⟩
    | @cut spare n a t v ht ha hr hp =>
      subst ht
      rw [tryFrom_eq]
      refine Course.bind_iff.2 ⟨a.calls, [], _, _, by simp, ha, ?_⟩
      exact course_behind_iff.2 (.inr ⟨spare, true, v, rfl, hr, hp, .done _ _⟩)
    | @again spare n a t u v as r ht ha hr hp _ ih =>
      subst ht
      rw [tryFrom_eq]
      refine Course.bind_iff.2 ⟨a.calls, as.flatMap (·.calls), _, _, by simp, ha, ?_⟩
      exact course_behind_iff.2 (.inr ⟨spare, false, u, rfl, hr, hp, ih⟩)

/-- The attempts come to these results, and take so long. -/
def Follows (results : Nat → Except Error α) (lasts : Nat → Nat) (n : Nat)
    (as : List (Attempt α)) : Prop :=
  ∀ i x, as[i]? = some x → x.result = results (n + i) ∧ x.ended = x.began + lasts (n + i)

theorem Follows.nil {results : Nat → Except Error α} {lasts : Nat → Nat} :
    Follows results lasts n [] := by
  rintro i x ⟨⟩

theorem Follows.cons {results : Nat → Except Error α} {lasts : Nat → Nat}
    (hr : x.result = results n) (hv : x.ended = x.began + lasts n)
    (h : Follows results lasts (n + 1) as) : Follows results lasts n (x :: as) := by
  intro i y hy
  cases i with
  | zero =>
    cases hy
    exact ⟨hr, hv⟩
  | succ i =>
    rw [← Nat.add_assoc, Nat.add_right_comm]
    exact h i y hy

/-- Whatever the attempts come to and however long they take, there is such a course. -/
theorem exists_tries {results : Nat → Except Error α} {lasts : Nat → Nat}
    (hop : ∀ n u, ∃ calls, Course s (op n) u calls (results n) (u + lasts n))
    (policy : RetryPolicy) (spare n : Nat) (t : Instant) :
    ∃ as r v, Tries s policy op spare n t as r v ∧ Follows results lasts n as := by
  induction spare generalizing n t with
  | zero =>
    obtain ⟨calls, hx⟩ := hop n t
    obtain ⟨a, rfl, -, hr, hv, ha⟩ := hx.exists_attempt
    exact ⟨[a], _, _, .last rfl ha fun _ => rfl, .cons hr hv .nil⟩
  | succ spare ih =>
    obtain ⟨calls, hx⟩ := hop n t
    obtain ⟨a, rfl, -, hr, hv, ha⟩ := hx.exists_attempt
    by_cases href : Refused a.result
    · -- the surroundings do not choose how the pause ends, so either way must go on
      obtain ⟨cut, u, hp⟩ := exists_pauseEnds s a.ended (policy.delayAfter n)
      cases cut with
      | true => exact ⟨[a], _, _, .cut rfl ha href hp, .cons hr hv .nil⟩
      | false =>
        obtain ⟨as, r, v, has, hfollows⟩ := ih (n + 1) u
        exact ⟨a :: as, r, v, .again rfl ha href hp has, .cons hr hv hfollows⟩
    · exact ⟨[a], _, _, .last rfl ha fun h => absurd h href, .cons hr hv .nil⟩

/-! ### What is seen of the attempts -/

namespace Tries

/-- The first attempt begins at once. -/
theorem head (h : Tries s policy op spare n t as r v) : ∃ x rest, as = x :: rest ∧ x.began = t := by
  cases h with
  | last ht ha hr => exact ⟨_, _, rfl, ht⟩
  | cut ht ha hr hp => exact ⟨_, _, rfl, ht⟩
  | again ht ha hr hp h => exact ⟨_, _, rfl, ht⟩

/-- From any attempt on they go on as from the first one. -/
theorem drop (h : Tries s policy op spare n t as r v) (hx : as[i]? = some x) :
    ∃ less rest, spare = less + i ∧ as.drop (i + 1) = rest ∧
      Tries s policy op less (n + i) x.began (x :: rest) r v := by
  induction i generalizing spare n t as with
  | zero =>
    obtain ⟨y, rest, rfl, rfl⟩ := h.head
    cases hx
    exact ⟨spare, rest, rfl, rfl, h⟩
  | succ i ih =>
    cases h with
    | last ht ha hr => cases hx
    | cut ht ha hr hp => cases hx
    | again ht ha hr hp h =>
      obtain ⟨less, rest, rfl, hdrop, hrest⟩ := ih h hx
      rw [Nat.add_right_comm] at hrest
      exact ⟨less, rest, rfl, hdrop, hrest⟩

/-- Each attempt is a whole course of the operation. -/
theorem made (h : Tries s policy op spare n t as r v) (hx : as[i]? = some x) :
    x.Made s (op (n + i)) := by
  obtain ⟨less, rest, -, -, h⟩ := h.drop hx
  cases h with
  | last ht ha hr => exact ha
  | cut ht ha hr hp => exact ha
  | again ht ha hr hp h => exact ha

theorem le_spare (h : Tries s policy op spare n t as r v) (hx : as[i]? = some x) : i ≤ spare := by
  obtain ⟨less, rest, rfl, -⟩ := h.drop hx
  exact Nat.le_add_left ..

/-- An attempt with another one behind it was refused, and the other one begins when
the pause is over. -/
theorem next (h : Tries s policy op spare n t as r v) (hx : as[i]? = some x)
    (hy : as[i + 1]? = some y) :
    Refused x.result ∧ PauseEnds s x.ended (policy.delayAfter (n + i)) false y.began := by
  obtain ⟨hlt, hget⟩ := List.getElem?_eq_some_iff.1 hy
  obtain ⟨less, rest, -, rfl, h⟩ := h.drop hx
  rw [List.drop_eq_getElem_cons hlt, hget] at h
  cases h with
  | again ht ha hr hp h =>
    obtain ⟨z, rest, hz, rfl⟩ := h.head
    cases hz
    exact ⟨hr, hp⟩

/-- The last attempt settles the operation, or the pause behind it is cut short. -/
theorem ending (h : Tries s policy op spare n t as r v) (hx : as[i]? = some x)
    (hlast : as.length = i + 1) :
    r = x.result ∧ v = x.ended ∧ (Refused x.result → i = spare) ∨
      r = .error .cancelled ∧ i < spare ∧ Refused x.result ∧
        PauseEnds s x.ended (policy.delayAfter (n + i)) true v := by
  obtain ⟨less, rest, rfl, rfl, h⟩ := h.drop hx
  rw [List.drop_eq_nil_of_le (Nat.le_of_eq hlast)] at h
  cases h with
  | last ht ha hr => exact .inl ⟨rfl, rfl, fun href => by rw [hr href, Nat.zero_add]⟩
  | cut ht ha hr hp => exact .inr ⟨rfl, by omega, hr, hp⟩
  | again ht ha hr hp h =>
    obtain ⟨z, rest, hz, -⟩ := h.head
    cases hz

end Tries

end DiskWatch.Activity
