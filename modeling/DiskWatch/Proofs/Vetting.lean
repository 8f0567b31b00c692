/-
DiskWatch/Proofs/Vetting.lean

A path is looked over twice: when the configuration is checked, and by the guard each
time before something is called with it.  The first asks for an absolute path.  The
second asks for that too, but first for a text without the patterns that climb or that
a shell would expand, and then whether the path is there.

A measurement that ends with the path named as invalid has it from the guard, or the
program that was called gave this very answer (`invalid_cases`).  So a target of an
accepted configuration is refused for its text, for a path that is not there, or for one
that cannot be looked at (`refused_only_for`), and a target with a pattern in its path is
accepted and then refused each time (`accepted_and_refused`).
-/
import DiskWatch.Config.Load
import DiskWatch.Proofs.Exchanges

namespace DiskWatch

/-! ### Configured paths -/

/-- The path of a target of an accepted configuration is absolute. -/
theorem Config.isAbsolute_of_mem {c : Config} (h : check c = .ok ()) {t : Target}
    (ht : t ∈ c.targets) : t.kind.path.isAbsolute = true := by
  obtain ⟨-, -, -, hnamed⟩ := c.check_eq_ok_iff.1 h
  rcases List.mem_append.1 ht with ht | ht
  · obtain ⟨e, he, rfl⟩ := List.mem_map.1 ht
    exact ((hnamed .filesystem).1 _ (List.mem_map_of_mem he)).2
  · obtain ⟨e, he, rfl⟩ := List.mem_map.1 ht
    exact ((hnamed .directory).1 _ (List.mem_map_of_mem he)).2

namespace Guard

variable {path : Path}

/-- The guard finds a pattern in a text that has one. -/
theorem textFault?_of_infix {pattern : String} (hp : pattern ∈ forbiddenPatterns)
    (h : pattern.toList <:+: path.text.toList) : ∃ first ∈ forbiddenPatterns,
      first.toList <:+: path.text.toList ∧ textFault? path = some (.forbidden first) := by
  have hsome : (forbiddenPatterns.find? (mentions path)).isSome := by
    rw [List.find?_isSome]
    exact ⟨pattern, hp, (Text.contains_iff _).2 h⟩
  obtain ⟨first, hfirst⟩ := Option.isSome_iff_exists.1 hsome
  have hmentions : mentions path first = true := List.find?_some hfirst
  refine ⟨first, List.mem_of_find?_eq_some hfirst, (Text.contains_iff _).1 hmentions, ?_⟩
  rw [textFault?, hfirst]

/-- The only fault that the text of an absolute path can show is a pattern. -/
theorem textFault?_of_isAbsolute {fault : PathFault} (ha : path.isAbsolute = true)
    (h : textFault? path = some fault) : ∃ pattern ∈ forbiddenPatterns,
      pattern.toList <:+: path.text.toList ∧ fault = .forbidden pattern := by
  cases hfind : forbiddenPatterns.find? (mentions path) with
  | some pattern =>
    have hmentions : mentions path pattern = true := List.find?_some hfind
    rw [textFault?, hfind] at h
    exact ⟨pattern, List.mem_of_find?_eq_some hfind, (Text.contains_iff _).1 hmentions,
      (Option.some.inj h).symm⟩
  | none =>
    rw [textFault?, hfind, ha] at h
    cases h

/-- A look at a path shows a fault if the path is not there or cannot be looked at. -/
theorem statusFault?_eq_some_iff {status : PathStatus} {fault : PathFault} :
    statusFault? status = some fault ↔ status = .absent ∧ fault = .missing ∨
      ∃ reason, status = .unreadable reason ∧ fault = .unreadable reason := by
  cases status <;> simp [statusFault?, eq_comm]

end Guard

namespace Measurement

open Activity (Trace)
open Exchange (calls)

variable {policy : RetryPolicy} {kind : JobKind} {timeout : Duration} {xs : List Exchange}
  {e : Error}

/-- A path whose text shows a fault is refused without anything being done. -/
theorem take_of_fault (policy : RetryPolicy) (timeout : Duration) {fault : PathFault}
    (h : Guard.textFault? kind.path = some fault) :
    take policy kind timeout = .done (.error (.invalidPath kind.path fault)) := by
  rw [take, Guard.check, h]
  rfl

/-- What a report comes to is not an error about a path. -/
theorem kind_ne_of_report {report : String} (h : ofReport kind report = .error e) :
    e.kind ≠ "validation" := by
  have hreport : ∃ tool fault, e = .badReport tool fault := by
    unfold ofReport at h
    cases kind with
    | filesystem job =>
      dsimp only at h
      split at h <;> cases h
      exact ⟨_, _, rfl⟩
    | directory job =>
      dsimp only at h
      split at h
      · cases h
        exact ⟨_, _, rfl⟩
      · split at h <;> cases h
        exact ⟨_, _, rfl⟩
  obtain ⟨tool, fault, rfl⟩ := hreport
  simp [Error.kind]

/-- An error about a path that comes after the guard was the last answer to a call. -/
theorem mem_calls_of_invalid {refusals : List Error} {last : Except Error String}
    (h : Asked policy kind timeout xs (.error e) refusals last) (he : e.kind = "validation") :
    (callOf kind timeout, .error e) ∈ calls xs := by
  rw [h.calls]
  cases last with
  | ok report => exact absurd he (kind_ne_of_report (h.report report rfl).symm)
  | error e' =>
    rcases h.error e' rfl with hsame | ⟨-, -, hcancelled⟩
    · cases hsame
      exact List.mem_append_right _ (List.mem_singleton_self _)
    · cases hcancelled
      simp [Error.kind] at he

/-- Where a measurement ends with an error about a path, the guard found a fault in the
text of the path, or by looking at it, or a program that was called answered so. -/
theorem invalid_cases (h : (take policy kind timeout).Trace xs (.error e))
    (he : e.kind = "validation") :
    (∃ fault, Guard.textFault? kind.path = some fault ∧ e = .invalidPath kind.path fault ∧
      xs = []) ∨
    (∃ status fault, Guard.Clean kind.path ∧ Guard.statusFault? status = some fault ∧
      e = .invalidPath kind.path fault ∧ xs = [.look kind.path status]) ∨
    ∃ call, (call, .error e) ∈ calls xs := by
  cases htext : Guard.textFault? kind.path with
  | some fault =>
    rw [take_of_fault policy timeout htext, Trace.done_iff] at h
    obtain ⟨rfl, he⟩ := h
    cases he
    exact .inl ⟨fault, rfl, rfl, rfl⟩
  | none =>
    right
    have hclean : Guard.Clean kind.path := (Guard.textFault?_eq_none_iff _).1 htext
    rw [take] at h
    obtain ⟨ys, zs, verdict, rfl, hcheck, hrest⟩ := Trace.bind_iff.1 h
    rcases Guard.trace_check hcheck with ⟨hnot, -⟩ | ⟨-, status, rfl, rfl⟩
    · exact absurd hclean hnot
    · cases hstatus : Guard.statusFault? status with
      | some fault =>
        left
        rw [hstatus] at hrest
        obtain ⟨rfl, he⟩ := Trace.done_iff.1 hrest
        cases he
        exact ⟨status, fault, hclean, hstatus, rfl, rfl⟩
      | none =>
        right
        rw [hstatus] at hrest
        obtain ⟨refusals, last, hasked⟩ := trace_ask hrest
        rw [Exchange.calls_append]
        exact ⟨_, List.mem_append_right _ (mem_calls_of_invalid hasked he)⟩

/-! ### The two checks together -/

/-- The path of every target of an accepted configuration is absolute, so its text passes
the guard if and only if it shows none of the forbidden patterns.

Where it shows one, every measurement of the target, with whatever policy, is an error of
validation that names such a pattern, and nothing is looked at or called.  And this is the
only other way to such an error: a measurement ends with one because of a pattern in the
text, because the look at the path did not find it or could not be made, or because a
program that was called gave this very error as its answer. -/
theorem refused_only_for (c : Config) (h : c.check = .ok ()) (t : Target) (ht : t ∈ c.targets) :
    t.kind.path.isAbsolute = true ∧
    (Guard.textFault? t.kind.path = none ↔
      ∀ pattern ∈ ["..", "~", "*", "?", "["], ¬ pattern.toList <:+: t.kind.path.text.toList) ∧
    ∀ policy,
      ((∃ pattern ∈ ["..", "~", "*", "?", "["], pattern.toList <:+: t.kind.path.text.toList) →
        ∃ pattern ∈ ["..", "~", "*", "?", "["], pattern.toList <:+: t.kind.path.text.toList ∧
          take policy t.kind t.timeout =
            .done (.error (.invalidPath t.kind.path (.forbidden pattern)))) ∧
      ∀ xs e, (take policy t.kind t.timeout).Trace xs (.error e) → e.kind = "validation" →
        (∃ pattern ∈ ["..", "~", "*", "?", "["], pattern.toList <:+: t.kind.path.text.toList ∧
          e = .invalidPath t.kind.path (.forbidden pattern) ∧ xs = []) ∨
        (e = .invalidPath t.kind.path .missing ∧ xs = [.look t.kind.path .absent]) ∨
        (∃ reason, e = .invalidPath t.kind.path (.unreadable reason) ∧
          xs = [.look t.kind.path (.unreadable reason)]) ∨
        ∃ call, (call, .error e) ∈ calls xs := by
  have habs := Config.isAbsolute_of_mem h ht
  refine ⟨habs, ?_, fun policy => ⟨?_, fun xs e htrace he => ?_⟩⟩
  · have hroot : t.kind.path.text.toList.head? = some '/' := beq_iff_eq.1 habs
    rw [Guard.textFault?_eq_none_iff, Guard.Clean]
    exact and_iff_left hroot
  · rintro ⟨pattern, hp, hin⟩
    obtain ⟨first, hfirst, hshown, hfault⟩ := Guard.textFault?_of_infix hp hin
    exact ⟨first, hfirst, hshown, take_of_fault policy t.timeout hfault⟩
  · rcases invalid_cases htrace he with ⟨fault, hfault, rfl, rfl⟩ |
      ⟨status, fault, -, hfault, rfl, rfl⟩ | hcalled
    · obtain ⟨pattern, hp, hin, rfl⟩ := Guard.textFault?_of_isAbsolute habs hfault
      exact .inl ⟨pattern, hp, hin, rfl, rfl⟩
    · rcases Guard.statusFault?_eq_some_iff.1 hfault with ⟨rfl, rfl⟩ | ⟨reason, rfl, rfl⟩
      · exact .inr (.inl ⟨rfl, rfl⟩)
      · exact .inr (.inr (.inl ⟨reason, rfl, rfl⟩))
    · exact .inr (.inr (.inr hcalled))

/-- A file system whose mount point has a tilde in it. -/
def tildeConfig : Config :=
  { Config.standard with
    filesystems := [⟨"root", ⟨"/nope~duwatch"⟩, "disk", none, none⟩] }

/-- The target with the tilde is refused with every policy, for its text. -/
theorem refused_only_for_tilde : tildeConfig.check = .ok () ∧ ∃ t, t ∈ tildeConfig.targets ∧
    t.kind.path.isAbsolute = true ∧ Guard.textFault? t.kind.path ≠ none ∧
    ∃ pattern, take .standard t.kind t.timeout =
      .done (.error (.invalidPath t.kind.path (.forbidden pattern))) := by
  have hcheck : tildeConfig.check = .ok () := rfl
  let t : Target := tildeConfig.filesystemTarget ⟨"root", ⟨"/nope~duwatch"⟩, "disk", none, none⟩
  have ht : t ∈ tildeConfig.targets := List.mem_singleton_self t
  obtain ⟨habs, hclean, hrefused⟩ := refused_only_for tildeConfig hcheck t ht
  have htilde : "~".toList <:+: t.kind.path.text.toList :=
    ⟨"/nope".toList, "duwatch".toList, by decide⟩
  refine ⟨hcheck, t, ht, habs, ?_, ?_⟩
  · intro hnone
    exact hclean.1 hnone "~" (by decide) htilde
  · obtain ⟨pattern, -, -, htake⟩ := (hrefused .standard).1 ⟨"~", by decide, htilde⟩
    exact ⟨pattern, htake⟩

/-- The check of a configuration accepts a target that the guard refuses for its text. -/
theorem accepted_and_refused :
    ¬ ∀ c : Config, c.check = .ok () → ∀ t ∈ c.targets, Guard.textFault? t.kind.path = none := by
  intro hall
  have hcheck : tildeConfig.check = .ok () := rfl
  have hnone := hall tildeConfig hcheck _ (List.mem_singleton_self _)
  revert hnone
  decide

end Measurement

end DiskWatch
