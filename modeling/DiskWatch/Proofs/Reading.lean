/-
DiskWatch/Proofs/Reading.lean

Which reports of directory sizes are read, and what is read from them, for every text.

A line is cut in two at its first tab, or, if it has none, at the first white space
behind the white space it starts with (`Cut`).  It says how large a path is if the part
before the cut, without the white space around it, is a numeral of a word; the path is
the part behind the cut without the white space and then the separators at its end
(`Says`).  A line that says nothing is malformed.

A report is read whole or not at all.  The lines are gone through one after another up to
the first malformed one, which is the fault of the report (`addLines_eq_error_iff`).  Of a
report without malformed lines every line counts: what it says is added to the table, and
about each path the table keeps the text of the first line and the size of the last one
(`all_or_nothing`).
-/
import DiskWatch.Proofs.Numerals
import DiskWatch.Proofs.Tables
import DiskWatch.Usage.Directory
import Mathlib.Data.List.Forall2
import Mathlib.Data.List.TakeWhile

namespace DiskWatch

/-! ### Cuts -/

namespace Text

variable {p : Char → Bool} {cs xs ys : List Char}

theorem cutAt_eq_some_iff : cutAt p cs = some (xs, ys) ↔
    ∃ s, cs = xs ++ s :: ys ∧ (∀ c ∈ xs, p c = false) ∧ p s = true := by
  constructor
  · intro h
    rw [cutAt] at h
    split at h
    · cases h
    · next s rest hrest =>
      cases h
      have hs := List.head?_dropWhile_not (!p ·) cs
      rw [hrest] at hs
      refine ⟨s, ?_, ?_, by simpa using hs⟩
      · rw [← hrest, List.takeWhile_append_dropWhile]
      · intro c hc
        simpa using List.all_eq_true.1 List.all_takeWhile c hc
  · rintro ⟨s, rfl, hx, hs⟩
    exact cutAt_append hx hs ys

theorem cutAt_eq_none_iff : cutAt p cs = none ↔ ∀ c ∈ cs, p c = false := by
  have hnil : cutAt p cs = none ↔ cs.dropWhile (!p ·) = [] := by
    rw [cutAt]
    split
    · next h => simp [h]
    · next h => simp [h]
  rw [hnil, List.dropWhile_eq_nil_iff]
  simp

/-- White space at the start of a text, and then something visible or nothing. -/
theorem exists_append_trimStart (cs : List Char) :
    ∃ lead, (∀ c ∈ lead, isBlank c = true) ∧ cs = lead ++ trimStart cs ∧
      ∀ c ∈ (trimStart cs).head?, isBlank c = false := by
  refine ⟨cs.takeWhile isBlank, List.all_eq_true.1 List.all_takeWhile, ?_, fun c hc => ?_⟩
  · rw [trimStart, List.takeWhile_append_dropWhile]
  · have hfirst := List.head?_dropWhile_not isBlank cs
    rw [Option.mem_def, trimStart] at hc
    rw [hc] at hfirst
    exact hfirst

theorem trimStart_append {lead : List Char} (hlead : ∀ c ∈ lead, isBlank c = true)
    (hcs : ∀ c ∈ cs.head?, isBlank c = false) : trimStart (lead ++ cs) = cs := by
  rw [trimStart, List.dropWhile_append_of_pos hlead]
  cases cs with
  | nil => rfl
  | cons c cs => rw [List.dropWhile_cons_of_neg (by simpa using hcs c rfl)]

end Text

namespace Usage.SizeTable

open Text (isBlank)

variable {line size text : List Char} {row : Path × UInt64} {rows : List (Path × UInt64)}
  {lines : List (List Char)} {table t : SizeTable} {fault : ReportFault}

/-- A line cut in two: at its first tab, or, if it has none, at the first white space
behind the white space it starts with. -/
inductive Cut : List Char → List Char → List Char → Prop
  | tab {size text : List Char} (h : '\t' ∉ size) : Cut (size ++ '\t' :: text) size text
  | blank {lead size text : List Char} {s : Char} (hlead : ∀ c ∈ lead, isBlank c = true)
      (hne : size ≠ []) (hsize : ∀ c ∈ size, isBlank c = false) (hs : isBlank s = true)
      (htab : '\t' ∉ lead ++ (size ++ s :: text)) : Cut (lead ++ (size ++ s :: text)) size text

theorem cut?_eq_or (line : List Char) : cut? line =
    (Text.cutAt (· == '\t') line).or (Text.cutAt isBlank (Text.trimStart line)) := by
  simp [cut?]

theorem forall_ne_tab (cs : List Char) : (∀ c ∈ cs, (c == '\t') = false) ↔ '\t' ∉ cs := by
  simp only [beq_eq_false_iff_ne]
  exact ⟨fun h hmem => h '\t' hmem rfl, fun h c hc he => h (he ▸ hc)⟩

theorem cut?_eq_some_iff : cut? line = some (size, text) ↔ Cut line size text := by
  rw [cut?_eq_or, Option.or_eq_some_iff]
  simp only [Text.cutAt_eq_some_iff, Text.cutAt_eq_none_iff, forall_ne_tab]
  constructor
  · rintro (⟨s, rfl, hsize, hs⟩ | ⟨hno, s, hrest, hsize, hs⟩)
    · obtain rfl := beq_iff_eq.1 hs
      exact .tab hsize
    · obtain ⟨lead, hlead, hline, hfirst⟩ := Text.exists_append_trimStart line
      rw [hrest] at hline hfirst
      have hne : size ≠ [] := by
        rintro rfl
        exact Bool.noConfusion (hs.symm.trans (hfirst s rfl))
      rw [hline] at hno ⊢
      exact .blank hlead hne hsize hs hno
  · rintro (hno | ⟨hlead, hne, hsize, hs, hno⟩)
    · exact .inl ⟨'\t', rfl, hno, beq_self_eq_true '\t'⟩
    · next lead s =>
      have hfirst : ∀ c ∈ (size ++ s :: text).head?, isBlank c = false := by
        rw [List.head?_append_of_ne_nil _ hne]
        exact fun c hc => hsize c (List.mem_of_mem_head? hc)
      exact .inr ⟨hno, s, Text.trimStart_append hlead hfirst, hsize, hs⟩

theorem cut?_eq_none_iff :
    cut? line = none ↔ '\t' ∉ line ∧ ∀ c ∈ Text.trimStart line, isBlank c = false := by
  rw [cut?_eq_or, Option.or_eq_none_iff, Text.cutAt_eq_none_iff, Text.cutAt_eq_none_iff,
    forall_ne_tab]

/-! ### Lines -/

/-- What a line says of a path. -/
def Says (line : List Char) (row : Path × UInt64) : Prop :=
  ∃ size text, Cut line size text ∧ Text.Numeral (Text.trim size) row.2.toNat ∧
    row.1.text.toList = Path.normalizeChars (Text.trimEnd text)

/-- A line with neither a tab nor white space behind the white space it starts with, or
with something before the cut that is no numeral of a word. -/
def Malformed (line : List Char) : Prop :=
  ('\t' ∉ line ∧ ∀ c ∈ Text.trimStart line, isBlank c = false) ∨
    ∃ size text, Cut line size text ∧ ∀ n : UInt64, ¬ Text.Numeral (Text.trim size) n.toNat

theorem ofLine_eq_ok_iff : ofLine line = .ok row ↔ Says line row := by
  obtain ⟨path, blocks⟩ := row
  have hpath : ∀ cs : List Char, Path.mk (String.ofList cs) = path ↔ path.text.toList = cs := by
    intro cs
    constructor
    · rintro rfl
      exact String.toList_ofList
    · rintro rfl
      rw [String.ofList_toList]
  simp only [Says, ← cut?_eq_some_iff, ← Text.readWord_eq_ok_iff, ← hpath]
  rw [ofLine]
  split
  · next hcut =>
    refine iff_of_false nofun ?_
    rintro ⟨size, text, hsome, -⟩
    cases hcut.symm.trans hsome
  · next size text hcut =>
    split
    · next fault hfault =>
      refine iff_of_false nofun ?_
      rintro ⟨size', text', hsome, hok, -⟩
      cases hcut.symm.trans hsome
      cases hfault.symm.trans hok
    · next n hn =>
      constructor
      · intro h
        cases h
        exact ⟨size, text, hcut, hn, rfl⟩
      · rintro ⟨size', text', hsome, hok, rfl⟩
        cases hcut.symm.trans hsome
        cases hn.symm.trans hok
        rfl

/-- The malformed lines are those that are at fault. -/
theorem malformed_iff : Malformed line ↔ ∃ fault, ofLine line = .error fault := by
  rw [Malformed, ← cut?_eq_none_iff]
  simp only [← cut?_eq_some_iff, ← Text.readWord_eq_ok_iff]
  rw [ofLine]
  split
  · next hcut => exact iff_of_true (.inl hcut) ⟨_, rfl⟩
  · next size text hcut =>
    split
    · next fault hfault =>
      refine iff_of_true (.inr ⟨size, text, hcut, fun n hn => ?_⟩) ⟨_, rfl⟩
      cases hfault.symm.trans hn
    · next n hn =>
      refine iff_of_false ?_ nofun
      rintro (hnone | ⟨size', text', hsome, hno⟩)
      · cases hnone.symm.trans hcut
      · cases hcut.symm.trans hsome
        exact hno n hn

/-- A line is malformed if and only if it says nothing. -/
theorem not_malformed_iff : ¬ Malformed line ↔ ∃ row, Says line row := by
  simp only [malformed_iff, ← ofLine_eq_ok_iff]
  cases ofLine line with
  | error fault => simp
  | ok row => simp

/-- A fault names the line that is at fault. -/
theorem fault_of_line (h : ofLine line = .error fault) :
    fault = .malformedLine (String.ofList line) ∨
      ∃ e, fault = .badSize (String.ofList line) e := by
  rw [ofLine] at h
  split at h
  · cases h
    exact .inl rfl
  · split at h
    · cases h
      exact .inr ⟨_, rfl⟩
    · cases h

/-! ### Reports -/

/-- What the lines say is added to a table, if every line says something. -/
theorem addLines_eq_ok_iff : addLines table lines = .ok t ↔
    ∃ rows, List.Forall₂ Says lines rows ∧ rows.foldl (fun t r => t.insert r.1 r.2) table = t := by
  induction lines generalizing table with
  | nil => simp [addLines]
  | cons line lines ih =>
    simp only [List.forall₂_cons_left_iff]
    rw [addLines]
    split
    · next fault hfault =>
      refine iff_of_false nofun ?_
      rintro ⟨_, ⟨row, rows, hrow, -, rfl⟩, -⟩
      cases hfault.symm.trans (ofLine_eq_ok_iff.2 hrow)
    · next path blocks hline =>
      rw [ih]
      constructor
      · rintro ⟨rows, hrows, ht⟩
        exact ⟨_, ⟨_, rows, ofLine_eq_ok_iff.1 hline, hrows, rfl⟩, ht⟩
      · rintro ⟨_, ⟨row, rows, hrow, hrows, rfl⟩, ht⟩
        cases hline.symm.trans (ofLine_eq_ok_iff.2 hrow)
        exact ⟨rows, hrows, ht⟩

/-- The first malformed line is the fault of the lines. -/
theorem addLines_eq_error_iff : addLines table lines = .error fault ↔
    ∃ before line after, lines = before ++ line :: after ∧ (∀ l ∈ before, ¬ Malformed l) ∧
      ofLine line = .error fault := by
  induction lines generalizing table with
  | nil => simp [addLines]
  | cons line lines ih =>
    rw [addLines]
    split
    · next fault' hfault =>
      have hbad : Malformed line := malformed_iff.2 ⟨fault', hfault⟩
      constructor
      · rintro ⟨⟩
        exact ⟨[], line, lines, rfl, nofun, hfault⟩
      · rintro ⟨before, bad, after, hlines, hbefore, hf⟩
        cases before with
        | nil =>
          cases hlines
          cases hfault.symm.trans hf
          rfl
        | cons l before =>
          cases hlines
          exact absurd hbad (hbefore line List.mem_cons_self)
    · next path blocks hline =>
      have hgood : ¬ Malformed line := not_malformed_iff.2 ⟨_, ofLine_eq_ok_iff.1 hline⟩
      rw [ih]
      constructor
      · rintro ⟨before, bad, after, rfl, hbefore, hf⟩
        exact ⟨line :: before, bad, after, rfl, List.forall_mem_cons.2 ⟨hgood, hbefore⟩, hf⟩
      · rintro ⟨before, bad, after, hlines, hbefore, hf⟩
        cases before with
        | nil =>
          cases hlines
          exact absurd (malformed_iff.2 ⟨_, hf⟩) hgood
        | cons l before =>
          cases hlines
          exact ⟨before, bad, after, rfl, (List.forall_mem_cons.1 hbefore).2, hf⟩

theorem not_malformed_of_rows (h : List.Forall₂ Says lines rows) :
    ∀ line ∈ lines, ¬ Malformed line := by
  induction h with
  | nil => nofun
  | cons hrow _ ih => exact List.forall_mem_cons.2 ⟨not_malformed_iff.2 ⟨_, hrow⟩, ih⟩

theorem ofLines_eq_ok_iff : ofLines lines = .ok table ↔
    lines ≠ [] ∧ ∃ rows, List.Forall₂ Says lines rows ∧ PathTable.ofRows rows = table := by
  rw [ofLines]
  split
  · next h => simp [List.isEmpty_iff.1 h]
  · next h =>
    rw [addLines_eq_ok_iff]
    simp [← List.isEmpty_iff, h, PathTable.ofRows]

theorem ofLines_eq_error_iff : ofLines lines = .error fault ↔
    lines = [] ∧ fault = .noOutput ∨
      ∃ before line after, lines = before ++ line :: after ∧ (∀ l ∈ before, ¬ Malformed l) ∧
        ofLine line = .error fault := by
  rw [ofLines]
  split
  · next h =>
    obtain rfl := List.isEmpty_iff.1 h
    simp [eq_comm]
  · next h =>
    rw [addLines_eq_error_iff]
    simp [← List.isEmpty_iff, h]

/-- A report of any text has a fault if and only if it has no visible line or some visible
line is malformed, and then the first malformed line is the one that the fault names.  A
report without a fault has a row for each visible line, in order, and its table has one
entry about each path of these rows, with the text of the first row about it and the size
in the last one, and no other entry. -/
theorem all_or_nothing (report : String) :
    let lines := Text.visibleLines report.toList
    ((∃ fault, ofReport report = .error fault) ↔ lines = [] ∨ ∃ line ∈ lines, Malformed line) ∧
    (∀ fault, ofReport report = .error fault → lines = [] ∧ fault = .noOutput ∨
      ∃ before line after, lines = before ++ line :: after ∧ (∀ l ∈ before, ¬ Malformed l) ∧
        Malformed line ∧ (fault = .malformedLine (String.ofList line) ∨
          ∃ e, fault = .badSize (String.ofList line) e)) ∧
    ∀ table, ofReport report = .ok table → ∃ rows, List.Forall₂ Says lines rows ∧
      ∀ cs, about cs table.entries = (entryOf? cs rows).toList := by
  intro lines
  have hread : ofReport report = ofLines lines := rfl
  rw [hread]
  refine ⟨?_, fun fault h => ?_, fun table h => ?_⟩
  · constructor
    · rintro ⟨fault, h⟩
      rcases ofLines_eq_error_iff.1 h with ⟨hnone, -⟩ | ⟨before, line, after, hlines, -, hf⟩
      · exact .inl hnone
      · exact .inr ⟨line, by simp [hlines], malformed_iff.2 ⟨fault, hf⟩⟩
    · intro h
      cases hlines : ofLines lines with
      | error fault => exact ⟨fault, rfl⟩
      | ok table =>
        -- a report that is read has lines, and none of them is malformed
        obtain ⟨hne, rows, hrows, -⟩ := ofLines_eq_ok_iff.1 hlines
        rcases h with hnone | ⟨line, hmem, hbad⟩
        · exact absurd hnone hne
        · exact absurd hbad (not_malformed_of_rows hrows line hmem)
  · rcases ofLines_eq_error_iff.1 h with hnone | ⟨before, line, after, hlines, hbefore, hf⟩
    · exact .inl hnone
    · exact .inr ⟨before, line, after, hlines, hbefore, malformed_iff.2 ⟨fault, hf⟩,
        fault_of_line hf⟩
  · obtain ⟨-, rows, hrows, rfl⟩ := ofLines_eq_ok_iff.1 h
    exact ⟨rows, hrows, fun cs => PathTable.about_ofRows cs rows⟩

/-- A report with a blank line, a line without a tab, and two lines about one path: the
first one gives the text, the last one the size. -/
theorem all_or_nothing_of_namesakes : ∃ table rows,
    ofReport "5\t/a b//c/\n \n +07 /d\n9\t/a b/c\r\n" = .ok table ∧
    List.Forall₂ Says ["5\t/a b//c/".toList, " +07 /d".toList, "9\t/a b/c".toList] rows ∧
    (∀ cs, about cs table.entries = (entryOf? cs rows).toList) ∧
    table.entries = [(⟨"/a b//c"⟩, 9), (⟨"/d"⟩, 7)] := by
  have hentries : (ofReport "5\t/a b//c/\n \n +07 /d\n9\t/a b/c\r\n").map (·.entries) =
      .ok [(⟨"/a b//c"⟩, 9), (⟨"/d"⟩, 7)] := by
    decide +kernel
  have hlines : Text.visibleLines "5\t/a b//c/\n \n +07 /d\n9\t/a b/c\r\n".toList =
      ["5\t/a b//c/".toList, " +07 /d".toList, "9\t/a b/c".toList] := by
    decide +kernel
  cases hread : ofReport "5\t/a b//c/\n \n +07 /d\n9\t/a b/c\r\n" with
  | error fault =>
    rw [hread] at hentries
    cases hentries
  | ok table =>
    rw [hread] at hentries
    obtain ⟨rows, hrows, habout⟩ := (all_or_nothing _).2.2 table hread
    rw [hlines] at hrows
    exact ⟨table, rows, rfl, hrows, habout, Except.ok.inj hentries⟩

end Usage.SizeTable

end DiskWatch
