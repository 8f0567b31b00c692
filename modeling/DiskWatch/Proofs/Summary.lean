/-
DiskWatch/Proofs/Summary.lean

The size of a target from a summary, against its size among those of its
subdirectories.  A summary is a report of one entry, and the size of the target is that
of the entry, under the text of the target.  Down to a depth, a sample is an entry that
lies at or below the target, under the text of the entry, and a table of a report has
texts without trailing separators only (`ofReport_normalized`).

So the two agree on a summary if and only if its entry has the very text of the target
(`agree_iff`).  They differ where the target is given with trailing separators, and where
the entry is another path; whatever a target is answered with, there are measurements
that end so (`summary_and_depth`).
-/
import DiskWatch.Proofs.Depth
import DiskWatch.Proofs.Exchanges

namespace DiskWatch

/-! ### The texts of a table -/

theorem Path.normalize_ofChars (cs : List Char) :
    (Path.mk (String.ofList (Path.normalizeChars cs))).normalize =
      ⟨String.ofList (Path.normalizeChars cs)⟩ := by
  rw [Path.normalize, String.toList_ofList, Path.normalizeChars_idem]

theorem Entries.path_of_insertWith {α : Type} {e x : Path × α} {es : List (Path × α)}
    (h : x ∈ insertWith keepText e es) : x.1 = e.1 ∨ ∃ a ∈ es, x.1 = a.1 := by
  induction es with
  | nil => exact .inl (congrArg Prod.fst (List.mem_singleton.1 h))
  | cons a es ih =>
    -- the new entry comes before the first one, takes its place, or goes behind it
    rw [insertWith] at h
    split at h
    · rcases List.mem_cons.1 h with rfl | h
      · exact .inl rfl
      · exact .inr ⟨x, h, rfl⟩
    · rcases List.mem_cons.1 h with rfl | h
      · exact .inr ⟨a, List.mem_cons_self, rfl⟩
      · exact .inr ⟨x, List.mem_cons_of_mem a h, rfl⟩
    · rcases List.mem_cons.1 h with rfl | h
      · exact .inr ⟨x, List.mem_cons_self, rfl⟩
      · obtain hx | ⟨b, hb, hx⟩ := ih h
        · exact .inl hx
        · exact .inr ⟨b, List.mem_cons_of_mem a hb, hx⟩

namespace Usage

namespace SizeTable

/-- The paths of the table have no trailing separators. -/
def Normalized (t : SizeTable) : Prop := ∀ e ∈ t.entries, e.1.normalize = e.1

variable {t u : SizeTable} {path : Path} {blocks : UInt64} {line : List Char}

theorem ofLine_normalized (h : ofLine line = .ok (path, blocks)) : path.normalize = path := by
  rw [ofLine] at h
  split at h
  · cases h
  · split at h
    · cases h
    · cases h
      exact Path.normalize_ofChars _

theorem Normalized.insert (h : t.Normalized) (hp : path.normalize = path) :
    Normalized (t.insert path blocks) := by
  intro e he
  obtain hpath | ⟨a, ha, hpath⟩ := Entries.path_of_insertWith he
  · rw [hpath]
    exact hp
  · rw [hpath]
    exact h a ha

theorem Normalized.addLines {ls : List (List Char)} (h : t.Normalized)
    (hadd : addLines t ls = .ok u) : u.Normalized := by
  induction ls generalizing t with
  | nil =>
    cases hadd
    exact h
  | cons line ls ih =>
    rw [SizeTable.addLines] at hadd
    split at hadd
    · cases hadd
    · next hline => exact ih (h.insert (ofLine_normalized hline)) hadd

/-- The table of a report has no trailing separators. -/
theorem ofReport_normalized {report : String} (h : ofReport report = .ok t) : t.Normalized := by
  rw [ofReport, ofLines] at h
  split at h
  · cases h
  · have hempty : Normalized .empty := fun _ he => absurd he List.not_mem_nil
    exact hempty.addLines h

end SizeTable

/-! ### One entry -/

section Summary

variable {p q : Path} {blocks : UInt64} {table : SizeTable}

/-- A path with the components of the base is at the top level below it. -/
theorem level?_of_components (h : q.components = p.components) : Path.level? p q = some 0 := by
  have hrest : Path.remainder? p.components q.components = some [] := by
    rw [Path.remainder?_eq_some, h, List.append_nil]
  rw [Path.level?, hrest]
  rfl

/-- The only entry of a table is a sample at the top if it is there. -/
theorem inside_of_entry (h : table.entries = [(q, blocks)]) :
    (Samples.ofTable p 0 table).inside =
      if Path.level? p.normalize q = some 0 then [⟨q, 0, blockBytes blocks⟩] else [] := by
  show (table.entries.filterMap (Sample.ofEntry? p.normalize 0)).mergeSort Sample.le = _
  rw [h, List.filterMap_cons, Sample.ofEntry?]
  cases Path.level? p.normalize q with
  | none => simp
  | some level =>
    cases level with
    | zero => simp
    | succ level => simp

/-- A summary agrees with the samples at the top if its entry has the text of the
target. -/
theorem agree_iff (hp : p.isAbsolute) (h : table.entries = [(q, blocks)]) :
    [⟨p, 0, blockBytes blocks⟩] = (Samples.ofTable p 0 table).inside ↔ q = p := by
  rw [inside_of_entry h]
  constructor
  · intro heq
    split at heq
    · cases heq
      rfl
    · cases heq
  · rintro rfl
    rw [if_pos (level?_of_components (Path.components_normalize hp).symm)]

/-- Of a report of the target alone, the entry is the target without its trailing
separators. -/
theorem entry_of_target {rows : List Row} (hp : p.isAbsolute) (hline : '\n' ∉ p.text.toList)
    (hrows : ∀ row ∈ rows, row.Proper p) (hd : directories rows = [([], blocks)])
    (h : SizeTable.ofReport (report p rows) = .ok table) :
    table.entries = [(p.normalize, blocks)] := by
  have hnodup : ((directories rows).map Prod.fst).Nodup := by simp [hd]
  obtain ⟨t, ht, hperm⟩ := (ofReport_report hp hline hrows hnodup).2 (by simp [hd])
  obtain rfl := Except.ok.inj (h.symm.trans ht)
  rw [hd] at hperm
  exact List.perm_singleton.1 hperm

end Summary

end Usage

/-! ### Measurements -/

namespace Measurement

open Activity (Trace)
open Exchange (calls)
open Usage (SizeTable Samples Sample Row)

variable {policy : RetryPolicy} {kind : JobKind} {timeout : Duration} {xs : List Exchange}

/-- A measurement that succeeds was of a guarded path and got a report. -/
theorem trace_measured {m : Measurement} (h : (take policy kind timeout).Trace xs (.ok m)) :
    Guard.Clean kind.path ∧ ∃ report,
      (calls xs).getLast? = some (callOf kind timeout, .ok report) ∧
        ofReport kind report = .ok m := by
  rcases trace_take h with ⟨-, -, fault, hfault⟩ | ⟨⟨hclean, -⟩, refusals, last, hasked⟩
  · cases hfault
  · refine ⟨hclean, ?_⟩
    cases last with
    | ok report => exact ⟨report, by simp [hasked.calls], (hasked.report report rfl).symm⟩
    | error e => rcases hasked.error e rfl with h | ⟨-, -, h⟩ <;> cases h

/-- Whatever a guarded path is answered with, some measurement comes to it. -/
theorem exists_trace (policy : RetryPolicy) (timeout : Duration) (hclean : Guard.Clean kind.path)
    (report : String) : ∃ xs, (take policy kind timeout).Trace xs (ofReport kind report) ∧
      calls xs = [(callOf kind timeout, .ok report)] := by
  have hsound := (Guard.textFault?_eq_none_iff kind.path).2 hclean
  obtain ⟨next, htake, hnext⟩ := take_of_sound policy timeout hsound
  -- any run shows a trace of the reading, and what it comes to does not depend on the run
  let quiet : Activity.Conditions :=
    ⟨.standard, ⟨fun _ => .present, fun _ => .zero, fun _ _ => .ok ""⟩, none, false, none⟩
  obtain ⟨zs, hread, -⟩ := Activity.run_trace quiet (read kind report) .start
  have hquiet := hread.calls_eq_nil (read_uses _ kind report)
  rw [trace_read hread] at hread
  have htries : (Activity.retrying policy (callOf kind timeout).program fun _ =>
      .call (callOf kind timeout) .done).Trace [.call (callOf kind timeout) (.ok report)]
        (.ok report) := by
    rw [Activity.retrying, Activity.tryFrom]
    exact .call (.ok report) (.done _)
  refine ⟨.look kind.path .present :: (.call (callOf kind timeout) (.ok report) :: zs), ?_, ?_⟩
  · rw [htake]
    apply Trace.look
    rw [hnext]
    exact Trace.bind_iff.2 ⟨_, zs, .ok report, rfl, htries, hread⟩
  · exact congrArg ((callOf kind timeout, (Except.ok report : Except Error String)) :: ·) hquiet

theorem ofReport_eq_ok_iff {job : DirectoryJob} {report : String} {samples : List Sample} :
    ofReport (.directory job) report = .ok (.directory samples) ↔
      ∃ table, SizeTable.ofReport report = .ok table ∧
        (Usage.Directory.samples job.path job.levels table).1 = .ok samples := by
  unfold ofReport
  cases SizeTable.ofReport report with
  | error fault => simp
  | ok table =>
    cases hsamples : (Usage.Directory.samples job.path job.levels table).1 with
    | error fault => simp [hsamples]
    | ok found => simp [hsamples]

/-- A summary gives one sample, under the text of the target, if its table has one entry. -/
theorem summary_eq_ok_iff {p : Path} {table : SizeTable} {samples : List Sample} :
    (Usage.Directory.samples p 0 table).1 = .ok samples ↔
      ∃ q blocks, table.entries = [(q, blocks)] ∧ samples = [⟨p, 0, blockBytes blocks⟩] := by
  show Usage.Directory.summary p table = .ok samples ↔ _
  rw [Usage.Directory.summary]
  split
  · next q blocks he =>
    constructor
    · rintro ⟨⟩
      exact ⟨q, blocks, he, rfl⟩
    · rintro ⟨q', blocks', he', rfl⟩
      cases he.symm.trans he'
      rfl
  · next hnot =>
    constructor
    · rintro ⟨⟩
    · rintro ⟨q, blocks, he, -⟩
      exact absurd he (hnot q blocks)

/-- Down to a depth, the samples are those of the table, if there is one. -/
theorem samples_of_depth {p : Path} {levels : UInt32} {table : SizeTable} {samples : List Sample}
    (hlevels : levels ≠ 0) (h : (Usage.Directory.samples p levels table).1 = .ok samples) :
    samples = (Samples.ofTable p levels.toNat table).inside := by
  rw [Usage.Directory.samples, if_neg hlevels] at h
  dsimp only at h
  split at h
  · cases h
  · exact (Except.ok.inj h).symm

/-- What a summary of a target comes to, next to the samples of its table at the top. -/
structure Summarised (p : Path) (report : String) (table : SizeTable) (samples : List Sample) :
    Prop where
  /-- They agree if the entry has the text of the target, and only then. -/
  entry : ∃ q blocks, table.entries = [(q, blocks)] ∧ q.normalize = q ∧
    samples = [⟨p, 0, blockBytes blocks⟩] ∧
    (Samples.ofTable p 0 table).inside =
      (if Path.level? p.normalize q = some 0 then [⟨q, 0, blockBytes blocks⟩] else []) ∧
    (samples = (Samples.ofTable p 0 table).inside ↔ q = p)
  /-- In particular for a report of the target itself. -/
  target : ∀ rows blocks, '\n' ∉ p.text.toList → (∀ row ∈ rows, row.Proper p) →
    Usage.directories rows = [([], blocks)] → report = Usage.report p rows →
    samples = [⟨p, 0, blockBytes blocks⟩] ∧
      (Samples.ofTable p 0 table).inside = [⟨p.normalize, 0, blockBytes blocks⟩]

theorem summarised {p : Path} {report : String} {table : SizeTable} {samples : List Sample}
    (hp : p.isAbsolute) (hread : SizeTable.ofReport report = .ok table)
    (h : (Usage.Directory.samples p 0 table).1 = .ok samples) :
    Summarised p report table samples := by
  obtain ⟨q, blocks, he, rfl⟩ := summary_eq_ok_iff.1 h
  have hq : q.normalize = q := SizeTable.ofReport_normalized hread (q, blocks) (by simp [he])
  refine ⟨⟨q, blocks, he, hq, rfl, Usage.inside_of_entry he, Usage.agree_iff hp he⟩, ?_⟩
  rintro rows blocks' hline hrows hd rfl
  have htarget := Usage.entry_of_target hp hline hrows hd hread
  -- the entry that was read is the one of the target
  cases he.symm.trans htarget
  rw [Usage.inside_of_entry he, if_pos (Usage.level?_of_components rfl)]
  exact ⟨rfl, rfl⟩

/-- When a measurement of a directory succeeds, its samples come from the table of one
report.  Down to a depth they are the entries of the table at or below the target, under
texts without trailing separators.  In a summary there is one sample, the only entry of
the table, under the text of the target; next to it the samples of the same table at the
top are that entry under its own text if it lies there, and nothing if it does not.  So
the two agree if and only if the entry has the text of the target, and for a report of
the target itself if and only if the target is given without trailing separators.

Whatever table of one entry a guarded target is answered with, some measurement ends
with its summary. -/
theorem summary_and_depth (policy : RetryPolicy) (p : Path) (levels : UInt32)
    (timeout : Duration) :
    (∀ xs samples,
      (take policy (.directory ⟨p, levels⟩) timeout).Trace xs (.ok (.directory samples)) →
      ∃ report table,
        (calls xs).getLast? = some (callOf (.directory ⟨p, levels⟩) timeout, .ok report) ∧
        SizeTable.ofReport report = .ok table ∧
        (levels ≠ 0 → samples = (Samples.ofTable p levels.toNat table).inside ∧
          ∀ s ∈ samples, s.path.normalize = s.path) ∧
        (levels = 0 → Summarised p report table samples)) ∧
    ∀ report table q blocks, Guard.Clean p → SizeTable.ofReport report = .ok table →
      table.entries = [(q, blocks)] →
      ∃ xs, (take policy (.directory ⟨p, 0⟩) timeout).Trace xs
          (.ok (.directory [⟨p, 0, blockBytes blocks⟩])) ∧
        calls xs = [(callOf (.directory ⟨p, 0⟩) timeout, .ok report)] := by
  constructor
  · intro xs samples h
    obtain ⟨⟨-, hroot⟩, report, hlast, hreport⟩ := trace_measured h
    obtain ⟨table, hread, hsamples⟩ := ofReport_eq_ok_iff.1 hreport
    refine ⟨report, table, hlast, hread, fun hlevels => ?_, ?_⟩
    · have hinside := samples_of_depth hlevels hsamples
      refine ⟨hinside, fun s hs => ?_⟩
      rw [hinside] at hs
      obtain ⟨e, he, hes⟩ := List.mem_filterMap.1 ((Samples.inside_perm p _ table).subset hs)
      rw [Sample.path_of_sample hes]
      exact SizeTable.ofReport_normalized hread e he
    · rintro rfl
      exact summarised (beq_iff_eq.2 hroot) hread hsamples
  · intro report table q blocks hclean hread he
    have hkind : Guard.Clean (JobKind.directory ⟨p, 0⟩).path := hclean
    have hok : ofReport (.directory ⟨p, 0⟩) report =
        .ok (.directory [⟨p, 0, blockBytes blocks⟩]) :=
      ofReport_eq_ok_iff.2 ⟨table, hread, summary_eq_ok_iff.2 ⟨q, blocks, he, rfl⟩⟩
    obtain ⟨xs, hxs, hcalls⟩ := exists_trace policy timeout hkind report
    rw [hok] at hxs
    exact ⟨xs, hxs, hcalls⟩

/-- A target with a trailing separator, answered with its own size, is measured under two
texts. -/
theorem summary_and_depth_of_separator : ∃ xs samples report table,
    (take .standard (.directory ⟨⟨"/usr/"⟩, 0⟩) (.ofSecs 60)).Trace xs (.ok (.directory samples)) ∧
    calls xs = [(⟨"du", ["-s", "-x", "-k", "/usr/"], .ofSecs 60⟩, .ok report)] ∧
    SizeTable.ofReport report = .ok table ∧ samples = [⟨⟨"/usr/"⟩, 0, 5120⟩] ∧
    (Samples.ofTable ⟨"/usr/"⟩ 0 table).inside = [⟨⟨"/usr"⟩, 0, 5120⟩] := by
  have hclean : Guard.Clean ⟨"/usr/"⟩ := (Guard.textFault?_eq_none_iff _).1 (by decide +kernel)
  have hentries : (SizeTable.ofReport "5\t/usr/\n").map (·.entries) = .ok [(⟨"/usr"⟩, 5)] := by
    decide +kernel
  cases hread : SizeTable.ofReport "5\t/usr/\n" with
  | error fault =>
    rw [hread] at hentries
    cases hentries
  | ok table =>
    rw [hread] at hentries
    obtain ⟨hall, hsome⟩ := summary_and_depth .standard ⟨"/usr/"⟩ 0 (.ofSecs 60)
    obtain ⟨xs, htrace, hcalls⟩ := hsome _ table _ _ hclean hread (Except.ok.inj hentries)
    obtain ⟨report, table', hlast, hread', -, hsummary⟩ := hall xs _ htrace
    rw [hcalls] at hlast
    cases hlast
    obtain rfl := Except.ok.inj (hread.symm.trans hread')
    obtain ⟨-, hinside⟩ := (hsummary rfl).target [.entry [] 5 1, .blank []] 5 (by decide +kernel)
      (by decide +kernel) rfl (by decide +kernel)
    have hsamples : [Sample.mk ⟨"/usr/"⟩ 0 (blockBytes 5)] = [⟨⟨"/usr/"⟩, 0, 5120⟩] := by
      decide +kernel
    exact ⟨xs, _, _, table, htrace, hcalls, hread, hsamples, hinside.trans (by decide +kernel)⟩

/-- Summaries of a target with a trailing separator, and of one that is answered with
another path, next to the samples of their tables at the top. -/
theorem summary_under_other_text :
    let both (p : Path) (report : String) := (SizeTable.ofReport report).map fun table =>
      ((Usage.Directory.samples p 0 table).1, (Samples.ofTable p 0 table).inside)
    both ⟨"/usr/"⟩ "5\t/usr/\n" = .ok (.ok [⟨⟨"/usr/"⟩, 0, 5120⟩], [⟨⟨"/usr"⟩, 0, 5120⟩]) ∧
    both ⟨"/usr"⟩ "5\t/other\n" = .ok (.ok [⟨⟨"/usr"⟩, 0, 5120⟩], []) := by
  decide +kernel

end Measurement

end DiskWatch
