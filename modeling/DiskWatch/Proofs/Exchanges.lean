/-
DiskWatch/Proofs/Exchanges.lean

What a measurement may exchange with the outside world.  A trace is a list of
exchanges with their answers that leads an activity to its end; a trace of two
activities one after the other is a trace of the first and then one of the
second (`Trace.bind_iff`), and every run follows a trace (`run_trace`).

A measurement is put together of a guard, of calls that are tried again, and of
reading a report, and so are its traces.  Only a path that passes the guard is
ever given to a program, all calls are the same, all of them but the last one
were answered with a failing exit, and what the last one was answered with is
what becomes of the measurement (`guarded_calls`).
-/
import DiskWatch.Alone
import DiskWatch.Measurement

namespace DiskWatch

/-! ### Texts within texts -/

theorem Text.contains_iff {needle : List Char} (cs : List Char) :
    Text.contains needle cs = true ↔ needle <:+: cs := by
  induction cs with
  | nil => rw [contains, List.isEmpty_iff, List.infix_nil]
  | cons c cs ih => rw [contains, Bool.or_eq_true, List.isPrefixOf_iff_prefix, ih, List.infix_cons_iff]

/-! ### Traces -/

/-- One exchange with the outside world, with its answer. -/
inductive Exchange
  | look (path : Path) (status : PathStatus)
  | call (c : Call) (answer : Except Error String)
  | pause (length : Duration) (cut : Bool)
  | note (n : Note)

/-- The call that an exchange is, with its answer. -/
def Exchange.call? : Exchange → Option (Call × Except Error String)
  | call c answer => some (c, answer)
  | _ => none

/-- The calls of a trace, with their answers. -/
def Exchange.calls (xs : List Exchange) : List (Call × Except Error String) := xs.filterMap Exchange.call?

@[simp] theorem Exchange.calls_append (xs ys : List Exchange) :
    calls (xs ++ ys) = calls xs ++ calls ys :=
  List.filterMap_append

namespace Activity

open Exchange (calls)

variable {α β : Type} {xs : List Exchange} {a b : α}

/-- The exchanges that lead an activity to a result. -/
inductive Trace : Activity α → List Exchange → α → Prop
  | done (a : α) : Trace (done a) [] a
  | look {path : Path} {next : PathStatus → Activity α} {xs : List Exchange} {a : α}
      (status : PathStatus) (h : Trace (next status) xs a) :
      Trace (look path next) (.look path status :: xs) a
  | call {c : Call} {next : Except Error String → Activity α} {xs : List Exchange} {a : α}
      (answer : Except Error String) (h : Trace (next answer) xs a) :
      Trace (call c next) (.call c answer :: xs) a
  | pause {length : Duration} {next : Bool → Activity α} {xs : List Exchange} {a : α}
      (cut : Bool) (h : Trace (next cut) xs a) :
      Trace (pause length next) (.pause length cut :: xs) a
  | note {n : Note} {next : Activity α} {xs : List Exchange} {a : α} (h : Trace next xs a) :
      Trace (note n next) (.note n :: xs) a

namespace Trace

@[simp] theorem done_iff : Trace (.done a) xs b ↔ xs = [] ∧ b = a := by
  constructor
  · rintro ⟨⟩
    exact ⟨rfl, rfl⟩
  · rintro ⟨rfl, rfl⟩
    exact .done b

theorem look_iff {path : Path} {next : PathStatus → Activity α} :
    Trace (.look path next) xs a ↔
      ∃ status ys, xs = .look path status :: ys ∧ Trace (next status) ys a := by
  constructor
  · rintro (_ | ⟨status, h⟩)
    exact ⟨status, _, rfl, h⟩
  · rintro ⟨status, ys, rfl, h⟩
    exact .look status h

theorem call_iff {c : Call} {next : Except Error String → Activity α} :
    Trace (.call c next) xs a ↔
      ∃ answer ys, xs = .call c answer :: ys ∧ Trace (next answer) ys a := by
  constructor
  · rintro (_ | _ | ⟨answer, h⟩)
    exact ⟨answer, _, rfl, h⟩
  · rintro ⟨answer, ys, rfl, h⟩
    exact .call answer h

theorem pause_iff {length : Duration} {next : Bool → Activity α} :
    Trace (.pause length next) xs a ↔
      ∃ cut ys, xs = .pause length cut :: ys ∧ Trace (next cut) ys a := by
  constructor
  · rintro (_ | _ | _ | ⟨cut, h⟩)
    exact ⟨cut, _, rfl, h⟩
  · rintro ⟨cut, ys, rfl, h⟩
    exact .pause cut h

theorem note_iff {n : Note} {next : Activity α} :
    Trace (.note n next) xs a ↔ ∃ ys, xs = .note n :: ys ∧ Trace next ys a := by
  constructor
  · rintro (_ | _ | _ | _ | h)
    exact ⟨_, rfl, h⟩
  · rintro ⟨ys, rfl, h⟩
    exact .note h

/-- A trace of two activities is a trace of the first and then one of the second. -/
theorem bind_iff {x : Activity α} {k : α → Activity β} {b : β} :
    Trace (x.bind k) xs b ↔
      ∃ ys zs a, xs = ys ++ zs ∧ Trace x ys a ∧ Trace (k a) zs b := by
  constructor
  · intro h
    induction x generalizing xs with
    | done a => exact ⟨[], xs, a, rfl, .done a, h⟩
    | look path next ih =>
      obtain ⟨status, xs, rfl, hrest⟩ := look_iff.1 h
      obtain ⟨ys, zs, a, rfl, hx, hk⟩ := ih status hrest
      exact ⟨_, zs, a, rfl, .look status hx, hk⟩
    | call c next ih =>
      obtain ⟨answer, xs, rfl, hrest⟩ := call_iff.1 h
      obtain ⟨ys, zs, a, rfl, hx, hk⟩ := ih answer hrest
      exact ⟨_, zs, a, rfl, .call answer hx, hk⟩
    | pause length next ih =>
      obtain ⟨cut, xs, rfl, hrest⟩ := pause_iff.1 h
      obtain ⟨ys, zs, a, rfl, hx, hk⟩ := ih cut hrest
      exact ⟨_, zs, a, rfl, .pause cut hx, hk⟩
    | note n next ih =>
      obtain ⟨xs, rfl, hrest⟩ := note_iff.1 h
      obtain ⟨ys, zs, a, rfl, hx, hk⟩ := ih hrest
      exact ⟨_, zs, a, rfl, .note hx, hk⟩
  · rintro ⟨ys, zs, a, rfl, hx, hk⟩
    induction hx with
    | done a => exact hk
    | look status _ ih => exact .look status (ih hk)
    | call answer _ ih => exact .call answer (ih hk)
    | pause cut _ ih => exact .pause cut (ih hk)
    | note _ ih => exact .note (ih hk)

/-- The calls of a trace are calls of the activity. -/
theorem calls_of_uses {p : Call → Prop} {x : Activity α} (h : Trace x xs a) (hx : x.Uses p) :
    ∀ call ∈ calls xs, p call.1 := by
  induction h with
  | done a => exact nofun
  | look status _ ih => exact ih (hx status)
  | call answer _ ih =>
    rintro call hcall
    rcases List.mem_cons.1 hcall with rfl | hcall
    · exact hx.1
    · exact ih (hx.2 answer) call hcall
  | pause cut _ ih => exact ih (hx cut)
  | note _ ih => exact ih hx

theorem calls_eq_nil {x : Activity α} (h : Trace x xs a) (hx : x.Uses fun _ => False) :
    calls xs = [] :=
  List.eq_nil_iff_forall_not_mem.2 (h.calls_of_uses hx)

end Trace

/-- Every run of an activity follows one of its traces, and makes the calls of it. -/
theorem run_trace (c : Conditions) (x : Activity α) (p : Progress) :
    ∃ xs, Trace x xs (run c x p).1 ∧
      (run c x p).2.calls.map (·.call) = p.calls.map (·.call) ++ (calls xs).map Prod.fst := by
  induction x generalizing p with
  | done a => exact ⟨[], .done a, (List.append_nil _).symm⟩
  | look path next ih =>
    obtain ⟨xs, h, hcalls⟩ := ih _ p
    exact ⟨_, .look _ h, hcalls⟩
  | call k next ih =>
    obtain ⟨xs, h, hcalls⟩ := ih _ _
    refine ⟨_, .call _ h, hcalls.trans ?_⟩
    rw [List.map_append, List.append_assoc]
    rfl
  | pause d next ih =>
    obtain ⟨xs, h, hcalls⟩ := ih _ _
    exact ⟨_, .pause _ h, hcalls⟩
  | note n next ih =>
    obtain ⟨xs, h, hcalls⟩ := ih _
    exact ⟨_, .note h, hcalls⟩

/-! ### Calls that are tried again -/

/-- What becomes of a call that is tried, when it was refused so often and then
answered: the answer is the result, unless the call might have been tried again
and a cancellation came in between. -/
def Settles (spare refused : Nat) (last result : Except Error String) : Prop :=
  result = last ∧ (∀ e, last = .error e → e.retryable = true → refused = spare) ∨
    (∃ e, last = .error e ∧ e.retryable = true) ∧ refused < spare ∧ result = .error .cancelled

variable {policy : RetryPolicy} {name : String} {c : Call} {spare attempt refused : Nat}
  {last result : Except Error String}

theorem Settles.succ (h : Settles spare refused last result) :
    Settles (spare + 1) (refused + 1) last result := by
  rcases h with ⟨hres, hlast⟩ | ⟨hlast, hlt, hres⟩
  · left
    refine ⟨hres, ?_⟩
    intro e he hretry
    rw [hlast e he hretry]
  · exact .inr ⟨hlast, Nat.succ_lt_succ hlt, hres⟩

/-- One attempt makes one call.  It is the last one, or it was refused and another
attempt follows. -/
theorem trace_attempt
    (h : Trace (tryFrom policy name (fun _ => call c done) spare attempt) xs result) :
    ∃ answer rest, calls xs = (c, answer) :: calls rest ∧
      (calls rest = [] ∧ Settles spare 0 answer result ∨
        ∃ e less more, answer = .error e ∧ e.retryable = true ∧ spare = less + 1 ∧
          calls rest = calls more ∧
          Trace (tryFrom policy name (fun _ => call c done) less (attempt + 1)) more result) := by
  rw [tryFrom] at h
  obtain ⟨answer, rest, rfl, hnext⟩ := Trace.call_iff.1 h
  refine ⟨answer, rest, rfl, ?_⟩
  rw [done_bind] at hnext
  cases answer with
  | ok report =>
    obtain ⟨rfl, rfl⟩ := Trace.done_iff.1 hnext
    refine .inl ⟨rfl, .inl ⟨rfl, ?_⟩⟩
    rintro e ⟨⟩
  | error e =>
    dsimp only at hnext
    cases he : e.retryable with
    | false =>
      rw [he, Bool.not_false, if_pos rfl] at hnext
      obtain ⟨rfl, rfl⟩ := Trace.done_iff.1 hnext
      refine .inl ⟨rfl, .inl ⟨rfl, ?_⟩⟩
      rintro e ⟨⟩ hretry
      exact absurd (he.symm.trans hretry) Bool.false_ne_true
    | true =>
      rw [he, Bool.not_true, if_neg Bool.false_ne_true] at hnext
      cases spare with
      | zero =>
        obtain ⟨ys, rfl, hend⟩ := Trace.note_iff.1 hnext
        obtain ⟨rfl, rfl⟩ := Trace.done_iff.1 hend
        exact .inl ⟨rfl, .inl ⟨rfl, fun _ _ _ => rfl⟩⟩
      | succ less =>
        obtain ⟨ys, rfl, hpause⟩ := Trace.note_iff.1 hnext
        obtain ⟨cut, ys, rfl, hend⟩ := Trace.pause_iff.1 hpause
        cases cut with
        | true =>
          obtain ⟨rfl, rfl⟩ := Trace.done_iff.1 hend
          exact .inl ⟨rfl, .inr ⟨⟨e, rfl, he⟩, Nat.succ_pos less, rfl⟩⟩
        | false => exact .inr ⟨e, less, ys, rfl, he, rfl, rfl, hend⟩

/-- A call that is tried is made once more than it is refused with an error that
is worth another attempt. -/
theorem trace_tries
    (h : Trace (tryFrom policy name (fun _ => call c done) spare attempt) xs result) :
    ∃ (refusals : List Error) (last : Except Error String),
      calls xs = refusals.map (fun e => (c, .error e)) ++ [(c, last)] ∧
      refusals.length ≤ spare ∧ (∀ e ∈ refusals, e.retryable = true) ∧
      Settles spare refusals.length last result := by
  induction spare generalizing attempt xs with
  | zero =>
    obtain ⟨answer, rest, hcalls, ⟨hlast, hs⟩ | ⟨e, less, more, -, -, hless, -⟩⟩ := trace_attempt h
    · rw [hlast] at hcalls
      exact ⟨[], answer, hcalls, Nat.le_refl 0, nofun, hs⟩
    · cases hless
  | succ spare ih =>
    obtain ⟨answer, rest, hcalls, ⟨hlast, hs⟩ | ⟨e, less, more, rfl, he, hless, hmore, hrest⟩⟩ :=
      trace_attempt h
    · rw [hlast] at hcalls
      exact ⟨[], answer, hcalls, Nat.zero_le _, nofun, hs⟩
    · -- the attempts that follow are those of the induction hypothesis
      obtain rfl : spare = less := Nat.succ.inj hless
      obtain ⟨refusals, last, hcalls', hle, hre, hs⟩ := ih hrest
      refine ⟨e :: refusals, last, ?_, Nat.succ_le_succ hle, ?_, hs.succ⟩
      · rw [hcalls, hmore, hcalls']
        rfl
      · intro e' he'
        rcases List.mem_cons.1 he' with rfl | he'
        · exact he
        · exact hre e' he'

end Activity

/-! ### The guard -/

/-- A path text that shows no fault. -/
def Guard.Clean (path : Path) : Prop :=
  (∀ pattern ∈ forbiddenPatterns, ¬ pattern.toList <:+: path.text.toList) ∧
    path.text.toList.head? = some '/'

theorem Guard.textFault?_eq_none_iff (path : Path) : textFault? path = none ↔ Clean path := by
  unfold textFault? Clean Path.isAbsolute
  have hfind : forbiddenPatterns.find? (mentions path) = none ↔
      ∀ pattern ∈ forbiddenPatterns, ¬ pattern.toList <:+: path.text.toList := by
    simp only [List.find?_eq_none, mentions, Text.contains_iff]
  rw [← hfind]
  cases forbiddenPatterns.find? (mentions path) with
  | some pattern => simp
  | none => simp

/-- The guard looks at a path whose text shows no fault, and at no other. -/
theorem Guard.trace_check {path : Path} {xs : List Exchange} {v : Except Error Unit}
    (h : (check path).Trace xs v) :
    (¬ Clean path ∧ xs = [] ∧ ∃ fault, v = .error (.invalidPath path fault)) ∨
      Clean path ∧ ∃ status, xs = [.look path status] ∧
        v = verdict path (statusFault? status) := by
  rw [check] at h
  split at h
  · next fault hfault =>
    obtain ⟨rfl, rfl⟩ := Activity.Trace.done_iff.1 h
    left
    refine ⟨?_, rfl, fault, rfl⟩
    rw [← textFault?_eq_none_iff, hfault]
    exact Option.some_ne_none fault
  · next hnone =>
    obtain ⟨status, ys, rfl, hend⟩ := Activity.Trace.look_iff.1 h
    obtain ⟨rfl, rfl⟩ := Activity.Trace.done_iff.1 hend
    exact .inr ⟨(textFault?_eq_none_iff path).1 hnone, status, rfl, rfl⟩

namespace Measurement

open Activity (Trace)
open Exchange (calls calls_append)

/-! ### Reading -/

/-- What a report comes to. -/
def ofReport (kind : JobKind) (report : String) : Except Error Measurement :=
  match kind with
  | .filesystem _ =>
    match Usage.Blocks.ofReport report with
    | .error fault => .error (.badReport .df fault)
    | .ok blocks => .ok (.filesystem (.ofBlocks blocks))
  | .directory job =>
    match Usage.SizeTable.ofReport report with
    | .error fault => .error (.badReport .du fault)
    | .ok table =>
      match (Usage.Directory.samples job.path job.levels table).1 with
      | .error fault => .error (.badReport .du fault)
      | .ok samples => .ok (.directory samples)

theorem trace_noteOutside {α : Type} {base : Path} {paths : List Path} {next : Activity α}
    {xs : List Exchange} {a : α} (h : (noteOutside base paths next).Trace xs a) :
    ∃ ys, next.Trace ys a := by
  induction paths generalizing xs with
  | nil => exact ⟨xs, h⟩
  | cons path paths ih =>
    obtain ⟨ys, -, hrest⟩ := Trace.note_iff.1 h
    exact ih hrest

/-- Reading a report gives what the report comes to. -/
theorem trace_read {kind : JobKind} {report : String} {xs : List Exchange}
    {result : Except Error Measurement} (h : (read kind report).Trace xs result) :
    result = ofReport kind report := by
  cases kind with
  | filesystem job =>
    obtain ⟨ys, -, hend⟩ := Trace.note_iff.1 h
    exact (Trace.done_iff.1 hend).2
  | directory job =>
    replace h : (readDirectory job report).Trace xs result := h
    unfold readDirectory at h
    unfold ofReport Usage.SizeTable.ofReport
    dsimp only at h ⊢
    generalize Usage.SizeTable.ofLines (Text.visibleLines report.toList) = parsed at h ⊢
    cases parsed with
    | error fault =>
      obtain ⟨ys, -, hend⟩ := Trace.note_iff.1 h
      exact (Trace.done_iff.1 hend).2
    | ok table =>
      obtain ⟨ys, -, hnotes⟩ := Trace.note_iff.1 h
      obtain ⟨zs, hend⟩ := trace_noteOutside hnotes
      exact (Trace.done_iff.1 hend).2

/-! ### Measuring -/

variable {policy : RetryPolicy} {kind : JobKind} {timeout : Duration} {xs : List Exchange}
  {result : Except Error Measurement}

/-- A report was asked for until there was one, or until there was an error that
is not worth another attempt, or that is but comes too late. -/
structure Asked (policy : RetryPolicy) (kind : JobKind) (timeout : Duration) (xs : List Exchange)
    (result : Except Error Measurement) (refusals : List Error) (last : Except Error String) :
    Prop where
  calls : calls xs =
    refusals.map (fun e => (callOf kind timeout, .error e)) ++ [(callOf kind timeout, last)]
  few : refusals.length < policy.attempts
  refused : ∀ e ∈ refusals, ∃ program code stderr, e = .failed program code stderr
  report : ∀ report, last = .ok report → result = ofReport kind report
  error : ∀ e, last = .error e → result = .error e ∨
    e.retryable = true ∧ refusals.length + 1 < policy.attempts ∧ result = .error .cancelled

/-- What follows a look that has found the path. -/
theorem trace_ask
    (h : Trace ((Activity.retrying policy (callOf kind timeout).program fun _ =>
      .call (callOf kind timeout) .done).bind fun
        | .error e => .done (.error e)
        | .ok report => read kind report) xs result) :
    ∃ refusals last, Asked policy kind timeout xs result refusals last := by
  obtain ⟨ys, zs, answer, rfl, htries, hread⟩ := Trace.bind_iff.1 h
  obtain ⟨refusals, last, hcalls, hle, hre, hs⟩ := Activity.trace_tries htries
  have hpos := policy.attempts_pos
  -- nothing is called once the attempts have ended
  have hquiet : Exchange.calls zs = [] := by
    apply hread.calls_eq_nil
    cases answer with
    | ok report => exact read_uses _ kind report
    | error e => trivial
  refine ⟨refusals, last, ?_, by omega, fun e he => Error.retryable_iff.1 (hre e he), ?_, ?_⟩
  · rw [calls_append, hquiet, List.append_nil, hcalls]
  · rintro report rfl
    rcases hs with ⟨rfl, -⟩ | ⟨⟨e, he, -⟩, -, -⟩
    · exact trace_read hread
    · cases he
  · rintro e rfl
    rcases hs with ⟨rfl, -⟩ | ⟨⟨e, ⟨⟩, he⟩, hlt, rfl⟩
    · exact .inl (Trace.done_iff.1 hread).2
    · exact .inr ⟨he, by omega, (Trace.done_iff.1 hread).2⟩

/-- A measurement ends with a fault of the path, or it goes on from a look that
has found the path. -/
theorem trace_take (h : (take policy kind timeout).Trace xs result) :
    (¬ (Guard.Clean kind.path ∧ xs.head? = some (.look kind.path .present)) ∧ calls xs = [] ∧
      ∃ fault, result = .error (.invalidPath kind.path fault)) ∨
    (Guard.Clean kind.path ∧ xs.head? = some (.look kind.path .present)) ∧
      ∃ refusals last, Asked policy kind timeout xs result refusals last := by
  rw [take] at h
  obtain ⟨ys, zs, verdict, rfl, hcheck, hrest⟩ := Trace.bind_iff.1 h
  rcases Guard.trace_check hcheck with ⟨hclean, rfl, fault, rfl⟩ | ⟨hclean, status, rfl, rfl⟩
  · left
    obtain ⟨rfl, rfl⟩ := Trace.done_iff.1 hrest
    exact ⟨fun hc => hclean hc.1, rfl, fault, rfl⟩
  · cases status with
    | present =>
      right
      obtain ⟨refusals, last, hasked⟩ := trace_ask hrest
      exact ⟨⟨hclean, rfl⟩, refusals, last, { hasked with }⟩
    | absent =>
      left
      obtain ⟨rfl, rfl⟩ := Trace.done_iff.1 hrest
      exact ⟨by simp, rfl, .missing, rfl⟩
    | unreadable reason =>
      left
      obtain ⟨rfl, rfl⟩ := Trace.done_iff.1 hrest
      exact ⟨by simp, rfl, .unreadable reason, rfl⟩

/-- The last argument of a call is the path that is measured. -/
theorem getLast?_arguments (kind : JobKind) (timeout : Duration) :
    (callOf kind timeout).arguments.getLast? = some kind.path.text := by
  cases kind with
  | filesystem job => rfl
  | directory job =>
    show (Usage.Directory.arguments job.path job.levels).getLast? = some job.path.text
    rw [Usage.Directory.arguments]
    split <;> rfl

/-- Whatever a measurement meets, it runs to an end, and it calls only on a
guarded path and only in one way:

* if the text of the path shows a fault, or the look at it does not find it, then
  nothing is called and the result names the path as invalid;
* else the same call is made once or more, up to the number of attempts: `df` with
  its own limit, or `du` with the limit of the job.  All answers but the last are
  failing exits.  If the last one is a report then the result is what the report
  comes to, also if that is an error, and if it is an error then so is the result;
* the last argument of a call starts at the root and shows no forbidden pattern. -/
theorem guarded_calls (policy : RetryPolicy) (kind : JobKind) (timeout : Duration) :
    (∀ conditions progress, ∃ xs,
      (take policy kind timeout).Trace xs
        (Activity.run conditions (take policy kind timeout) progress).1 ∧
      (Activity.run conditions (take policy kind timeout) progress).2.calls.map (·.call) =
        progress.calls.map (·.call) ++ (calls xs).map Prod.fst) ∧
    ∀ xs result, (take policy kind timeout).Trace xs result →
      (¬ (Guard.Clean kind.path ∧ xs.head? = some (.look kind.path .present)) →
        calls xs = [] ∧ ∃ fault, result = .error (.invalidPath kind.path fault)) ∧
      (Guard.Clean kind.path ∧ xs.head? = some (.look kind.path .present) →
        ∃ refusals last, Asked policy kind timeout xs result refusals last) ∧
      (∀ job, kind = .filesystem job →
        callOf kind timeout = ⟨"df", ["-k", job.mountPoint.text], .ofSecs 10⟩) ∧
      (∀ job, kind = .directory job →
        callOf kind timeout = ⟨"du", Usage.Directory.arguments job.path job.levels, timeout⟩) ∧
      ∀ call ∈ calls xs, ∃ text, call.1.arguments.getLast? = some text ∧
        text.toList.head? = some '/' ∧
        ∀ pattern ∈ ["..", "~", "*", "?", "["], ¬ pattern.toList <:+: text.toList := by
  refine ⟨fun conditions progress => Activity.run_trace conditions _ progress, ?_⟩
  intro xs result h
  refine ⟨?_, ?_, ?_, ?_, ?_⟩
  · intro hnot
    rcases trace_take h with ⟨-, hnone⟩ | ⟨hclean, -⟩
    · exact hnone
    · exact absurd hclean hnot
  · intro hclean
    rcases trace_take h with ⟨hnot, -⟩ | ⟨-, hasked⟩
    · exact absurd hclean hnot
    · exact hasked
  · rintro job rfl
    rfl
  · rintro job rfl
    rfl
  · intro call hcall
    rcases trace_take h with ⟨-, hnone, -⟩ | ⟨⟨hclean, -⟩, -⟩
    · rw [hnone] at hcall
      cases hcall
    · have hsame : call.1 = callOf kind timeout := h.calls_of_uses (take_uses policy kind timeout) call hcall
      rw [hsame]
      exact ⟨_, getLast?_arguments kind timeout, hclean.2, hclean.1⟩

/-- `df` fails once and is called a second time. -/
theorem guarded_calls_of_retry : ∃ xs result,
    (take .standard (.filesystem ⟨⟨"/"⟩, "disk"⟩) (.ofSecs 60)).Trace xs result ∧
    (calls xs).map Prod.fst = List.replicate 2 ⟨"df", ["-k", "/"], .ofSecs 10⟩ ∧
    ∃ refusals last,
      Asked .standard (.filesystem ⟨⟨"/"⟩, "disk"⟩) (.ofSecs 60) xs result refusals last ∧
      refusals.length = 1 := by
  let surroundings : Surroundings :=
    { look := fun _ => .present
      delay := fun _ => .zero
      result := fun ended _ => if ended.isEmpty then .error (.failed "df" 1 "") else .ok "" }
  obtain ⟨hrun, hall⟩ := guarded_calls .standard (.filesystem ⟨⟨"/"⟩, "disk"⟩) (.ofSecs 60)
  obtain ⟨xs, htrace, hcalls⟩ := hrun ⟨.standard, surroundings, none, false, none⟩ .start
  obtain ⟨hfault, hasked, -⟩ := hall xs _ htrace
  have htwo : (calls xs).map Prod.fst = List.replicate 2 ⟨"df", ["-k", "/"], .ofSecs 10⟩ := by
    refine Eq.trans hcalls.symm ?_
    decide +kernel
  refine ⟨xs, _, htrace, htwo, ?_⟩
  by_cases hfound : Guard.Clean ⟨"/"⟩ ∧ xs.head? = some (.look ⟨"/"⟩ .present)
  · obtain ⟨refusals, last, h⟩ := hasked hfound
    refine ⟨refusals, last, h, ?_⟩
    have hlength := congrArg List.length htwo
    rw [h.calls] at hlength
    simpa using hlength
  · rw [(hfault hfound).1] at htwo
    cases htwo

end Measurement

end DiskWatch
