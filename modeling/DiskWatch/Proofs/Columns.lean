/-
DiskWatch/Proofs/Columns.lean

Which reports on file systems are read, and what is read from them, for every text.

The words of a line are its fields.  They are numeric if the columns of numbers start with
the first field or with the second one, and the first one is tried before the second
(`Counts`).  The report is searched forward behind its first visible line, and only if
nothing is found there, backward from its end; then there is nothing numeric but the first
line, so this is all that the second search can find (`Picked`).  So a report is read if
and only if some line is numeric, and the fields of its lines are all that counts.

What follows from the counts is exact as well: the sizes in bytes stop at the greatest
word, and what is used is never more than there is, and nothing if more is available than
there is (`usage_exact`).
-/
import DiskWatch.Proofs.Layout
import DiskWatch.Proofs.Numerals
import DiskWatch.Usage.Filesystem

namespace DiskWatch.Usage.Blocks

open Text (words wordLines Numeral isBlank visibleLines)

variable {fields : List (List Char)} {rows : List (List (List Char))}
  {lines : List (List Char)} {b : Blocks} {fault : ReportFault}

/-! ### Fields -/

/-- Fields whose columns of numbers start with the first one. -/
inductive Columns : List (List Char) → Blocks → Prop
  | mk {size used available : List Char} {s u a : UInt64} (more : List (List Char))
      (hs : Numeral size s.toNat) (hu : Numeral used u.toNat) (ha : Numeral available a.toNat) :
      Columns (size :: used :: available :: more) ⟨s, a⟩

/-- Fields with columns of numbers from the first or the second one on. -/
def Numeric (fields : List (List Char)) : Prop :=
  (∃ b, Columns fields b) ∨ ∃ b, Columns fields.tail b

/-- What is counted in some fields; columns that start with the first field are preferred. -/
inductive Counts (fields : List (List Char)) (b : Blocks) : Prop
  | first (h : Columns fields b)
  | second (hno : ∀ c, ¬ Columns fields c) (h : Columns fields.tail b)

/-- The first numeric fields behind the heading are picked, or, if there are none, those of
the heading itself. -/
inductive Picked : List (List (List Char)) → Blocks → Prop
  | behind {heading fields : List (List Char)} {before after : List (List (List Char))}
      {b : Blocks} (hno : ∀ f ∈ before, ¬ Numeric f) (h : Counts fields b) :
      Picked (heading :: (before ++ fields :: after)) b
  | heading {heading : List (List Char)} {after : List (List (List Char))} {b : Blocks}
      (hno : ∀ f ∈ after, ¬ Numeric f) (h : Counts heading b) : Picked (heading :: after) b

theorem ofFields?_eq_some_iff : ofFields? fields = some b ↔ Columns fields b := by
  constructor
  · intro h
    unfold ofFields? at h
    split at h
    · next size used available more =>
      simp only [Option.bind_eq_bind, Option.bind_eq_some_iff, Option.some.injEq] at h
      obtain ⟨s, hs, u, hu, a, ha, rfl⟩ := h
      exact .mk more (Text.readWord?_eq_some_iff.1 hs) (Text.readWord?_eq_some_iff.1 hu)
        (Text.readWord?_eq_some_iff.1 ha)
    · cases h
  · rintro ⟨more, hs, hu, ha⟩
    simp [ofFields?, Text.readWord?_eq_some_iff.2 hs, Text.readWord?_eq_some_iff.2 hu,
      Text.readWord?_eq_some_iff.2 ha]

theorem ofFields?_eq_none_iff : ofFields? fields = none ↔ ∀ c, ¬ Columns fields c := by
  simp only [← ofFields?_eq_some_iff, Option.eq_none_iff_forall_ne_some, ne_eq]

/-- What is read from some fields. -/
def ofRow? (fields : List (List Char)) : Option Blocks :=
  (ofFields? fields).or (ofFields? fields.tail)

theorem ofLine?_eq (line : List Char) : ofLine? line = ofRow? (words line) := by
  simp [ofLine?, ofRow?]

theorem ofRow?_eq_some_iff : ofRow? fields = some b ↔ Counts fields b := by
  rw [ofRow?, Option.or_eq_some_iff, ofFields?_eq_some_iff, ofFields?_eq_some_iff,
    ofFields?_eq_none_iff]
  constructor
  · rintro (h | ⟨hno, h⟩)
    · exact .first h
    · exact .second hno h
  · rintro (h | ⟨hno, h⟩)
    · exact .inl h
    · exact .inr ⟨hno, h⟩

theorem ofRow?_eq_none_iff : ofRow? fields = none ↔ ¬ Numeric fields := by
  rw [ofRow?, Option.or_eq_none_iff, ofFields?_eq_none_iff, ofFields?_eq_none_iff, Numeric,
    not_or, not_exists, not_exists]

theorem numeric_iff : Numeric fields ↔ ∃ b, Counts fields b := by
  simp only [← ofRow?_eq_some_iff, ← Option.isSome_iff_exists, ← Option.ne_none_iff_isSome, ne_eq,
    ofRow?_eq_none_iff, not_not]

/-! ### Rows -/

/-- The search backward passes over all rows behind the heading, if none of them is numeric. -/
theorem findSome?_reverse {heading : List (List Char)} (hno : ∀ f ∈ rows, ¬ Numeric f) :
    (heading :: rows).reverse.findSome? ofRow? = ofRow? heading := by
  have hback : rows.reverse.findSome? ofRow? = none := by
    simpa [List.findSome?_eq_none_iff, ofRow?_eq_none_iff] using hno
  rw [List.reverse_cons, List.findSome?_append, hback, Option.none_or, List.findSome?_singleton]

/-- What is found in the rows, forward behind the heading and then backward from the end, is
what is picked. -/
theorem found_iff :
    (rows.tail.findSome? ofRow?).or (rows.reverse.findSome? ofRow?) = some b ↔ Picked rows b := by
  rw [Option.or_eq_some_iff, List.findSome?_eq_some_iff, List.findSome?_eq_none_iff]
  cases rows with
  | nil =>
    refine iff_of_false ?_ nofun
    simp
  | cons heading rest =>
    simp only [List.tail_cons, ofRow?_eq_some_iff, ofRow?_eq_none_iff]
    constructor
    · rintro (⟨before, fields, after, rfl, h, hno⟩ | ⟨hno, h⟩)
      · exact .behind hno h
      · rw [findSome?_reverse hno, ofRow?_eq_some_iff] at h
        exact .heading hno h
    · rintro (⟨hno, h⟩ | ⟨hno, h⟩)
      · exact .inl ⟨_, _, _, rfl, h, hno⟩
      · refine .inr ⟨hno, ?_⟩
        rw [findSome?_reverse hno, ofRow?_eq_some_iff]
        exact h

/-- Something is picked if and only if some row is numeric. -/
theorem exists_picked_iff : (∃ b, Picked rows b) ↔ ∃ fields ∈ rows, Numeric fields := by
  constructor
  · rintro ⟨b, ⟨-, h⟩ | ⟨-, h⟩⟩
    · exact ⟨_, by simp, numeric_iff.2 ⟨b, h⟩⟩
    · exact ⟨_, List.mem_cons_self, numeric_iff.2 ⟨b, h⟩⟩
  · rintro ⟨fields, hmem, hnumeric⟩
    cases hfound : (rows.tail.findSome? ofRow?).or (rows.reverse.findSome? ofRow?) with
    | some b => exact ⟨b, found_iff.1 hfound⟩
    | none =>
      -- the search backward has seen every row
      have hback := (Option.or_eq_none_iff.1 hfound).2
      rw [List.findSome?_eq_none_iff] at hback
      exact absurd hnumeric (ofRow?_eq_none_iff.1 (hback fields (List.mem_reverse.2 hmem)))

/-! ### Reports -/

/-- A report is read by the words of its lines. -/
theorem ofLines_eq (h : lines.map words = rows) : ofLines lines =
    if rows.isEmpty then .error .noOutput
    else match (rows.tail.findSome? ofRow?).or (rows.reverse.findSome? ofRow?) with
      | some blocks => .ok blocks
      | none => .error (.noNumericRow rows.length) := by
  have hrow : ofLine? = ofRow? ∘ words := funext ofLine?_eq
  have hfound : (lines.tail.findSome? ofLine? <|> lines.reverse.findSome? ofLine?) =
      (rows.tail.findSome? ofRow?).or (rows.reverse.findSome? ofRow?) := by
    rw [← h, ← List.map_tail, ← List.map_reverse, List.findSome?_map, List.findSome?_map, ← hrow]
    exact Option.orElse_eq_or
  have hlength : lines.length = rows.length := by rw [← h, List.length_map]
  have hempty : lines.isEmpty = rows.isEmpty := by rw [← h, List.isEmpty_map]
  rw [← hfound, ← hlength, ← hempty]
  rfl

theorem ofLines_eq_ok_iff (h : lines.map words = rows) :
    ofLines lines = .ok b ↔ Picked rows b := by
  rw [ofLines_eq h, ← found_iff]
  split
  · next hnil => simp [List.isEmpty_iff.1 hnil]
  · split
    · next blocks hfound => rw [hfound, Except.ok.injEq, Option.some.injEq]
    · next hfound =>
      rw [hfound]
      exact iff_of_false nofun nofun

theorem fault_of_lines (h : lines.map words = rows) (hf : ofLines lines = .error fault) :
    (∀ fields ∈ rows, ¬ Numeric fields) ∧
      fault = if rows = [] then .noOutput else .noNumericRow rows.length := by
  have hno : ∀ fields ∈ rows, ¬ Numeric fields := by
    intro fields hmem hnumeric
    obtain ⟨b, hb⟩ := exists_picked_iff.2 ⟨fields, hmem, hnumeric⟩
    cases hf.symm.trans ((ofLines_eq_ok_iff h).2 hb)
  refine ⟨hno, ?_⟩
  rw [ofLines_eq h] at hf
  split at hf
  · next hnil =>
    rw [if_pos (List.isEmpty_iff.1 hnil)]
    exact (Except.error.inj hf).symm
  · next hne =>
    rw [if_neg (mt List.isEmpty_iff.2 hne)]
    split at hf
    · cases hf
    · exact (Except.error.inj hf).symm

theorem ofReport_congr {report other : String}
    (h : wordLines other.toList = wordLines report.toList) : ofReport other = ofReport report := by
  rw [ofReport, ofReport, ofLines_eq (Text.map_words_visibleLines _), h,
    ofLines_eq (Text.map_words_visibleLines _)]

/-! ### Usage -/

/-- Usage that follows from some counts without an overflow. -/
structure Exact (b : Blocks) (u : Filesystem) : Prop where
  size : u.size.toNat = min (b.size.toNat * 1024) (UInt64.size - 1)
  available : u.available.toNat = min (b.available.toNat * 1024) (UInt64.size - 1)
  used : u.used.toNat = u.size.toNat - u.available.toNat
  used_le : u.used ≤ u.size
  used_add : b.available ≤ b.size → u.used.toNat + u.available.toNat = u.size.toNat
  unused : b.size < b.available → u.used = 0

/-- The usage follows exactly from any counts. -/
theorem usage_exact (b : Blocks) : Exact b (.ofBlocks b) := by
  have hused : (Filesystem.ofBlocks b).used.toNat =
      (Filesystem.ofBlocks b).size.toNat - (Filesystem.ofBlocks b).available.toNat :=
    Filesystem.toNat_excess _ _
  refine ⟨toNat_blockBytes b.size, toNat_blockBytes b.available, hused, ?_, fun h => ?_,
    fun h => ?_⟩
  · exact UInt64.le_iff_toNat_le.2 (Filesystem.used_le_size b)
  · exact Filesystem.used_add_available b (UInt64.le_iff_toNat_le.1 h)
  · have hlt := UInt64.lt_iff_toNat_lt.1 h
    rw [← UInt64.toNat_inj, hused]
    show (blockBytes b.size).toNat - (blockBytes b.available).toNat = 0
    rw [toNat_blockBytes, toNat_blockBytes]
    omega

/-- Of a report of any text, the first numeric line behind the first visible one counts, or,
if there is none, the first visible line itself; so the report is read if and only if it has
a numeric line, and has a fault otherwise.  What it comes to depends on the fields of its
visible lines alone.  White space that breaks the line may stand for other white space that
does, and white space within a line for other white space within a line; at both ends it
may be left out, and lines may end in carriage returns.

The usage that follows from any counts is exact. -/
theorem first_numeric_row (report : String) :
    let rows := (visibleLines report.toList).map words
    (∀ b, ofReport report = .ok b ↔ Picked rows b) ∧
    ((∃ b, ofReport report = .ok b) ↔ ∃ fields ∈ rows, Numeric fields) ∧
    (∀ fault, ofReport report = .error fault →
      fault = if rows = [] then .noOutput else .noNumericRow rows.length) ∧
    (∀ other : String, (visibleLines other.toList).map words = rows →
      ofReport other = ofReport report) ∧
    (∀ xs gap gap' ys, Text.Interchangeable gap gap' → report.toList = xs ++ (gap ++ ys) →
      ofReport (String.ofList (xs ++ (gap' ++ ys))) = ofReport report) ∧
    (∀ lead trail : List Char, (∀ c ∈ lead, isBlank c = true) → (∀ c ∈ trail, isBlank c = true) →
      ofReport (String.ofList (lead ++ (report.toList ++ trail))) = ofReport report) ∧
    ofReport (String.ofList (Text.withReturns report.toList)) = ofReport report ∧
    ∀ b, Exact b (.ofBlocks b) := by
  intro rows
  have hpicked : ∀ b, ofReport report = .ok b ↔ Picked rows b := fun b => ofLines_eq_ok_iff rfl
  refine ⟨hpicked, ?_, fun fault hf => (fault_of_lines rfl hf).2, fun other h => ?_,
    fun xs gap gap' ys h hreport => ?_, fun lead trail hlead htrail => ?_, ?_, usage_exact⟩
  · simp only [hpicked, exists_picked_iff]
  · apply ofReport_congr
    rw [← Text.map_words_visibleLines, ← Text.map_words_visibleLines]
    exact h
  · apply ofReport_congr
    rw [String.toList_ofList, hreport, Text.wordLines_respace h]
  · apply ofReport_congr
    rw [String.toList_ofList, Text.wordLines_outer hlead htrail]
  · apply ofReport_congr
    rw [String.toList_ofList]
    exact Text.wordLines_withReturns [] report.toList

/-- A report with numbers in its first line and in several others, in three layouts. -/
theorem first_numeric_row_of_many :
    let report := "1 2 3\nno row\nsda 10 20 30\n7 8 9 10\n"
    ofReport report = .ok ⟨10, 30⟩ ∧
    Picked ((visibleLines report.toList).map words) ⟨10, 30⟩ ∧
    ofReport "1\t2 3\r\n\nno row\n  sda 10  20 30\r\n7 8 9 10" = .ok ⟨10, 30⟩ ∧
    ofReport "1 2 3\n\r\nno row\nsda 10 20 30\n7 8 9 10\n" = .ok ⟨10, 30⟩ ∧
    ofReport "\n 1 2 3\nno row\nsda 10 20 30\n7 8 9 10\n\n" = .ok ⟨10, 30⟩ := by
  intro report
  obtain ⟨hpicked, -, -, hwords, hgap, houter, -, -⟩ := first_numeric_row report
  have hok : ofReport report = .ok ⟨10, 30⟩ := by decide +kernel
  have hbreak : Text.Interchangeable ['\n'] ['\n', '\r', '\n'] :=
    ⟨by simp [isBlank], by simp [isBlank], by decide, by decide, by decide⟩
  refine ⟨hok, (hpicked _).1 hok, ?_, ?_, ?_⟩
  · exact (hwords _ (by decide +kernel)).trans hok
  · have h := hgap "1 2 3".toList _ _ "no row\nsda 10 20 30\n7 8 9 10\n".toList hbreak
      (by decide +kernel)
    exact (congrArg ofReport (by decide +kernel)).trans (h.trans hok)
  · have h := houter ['\n', ' '] ['\n'] (by simp [isBlank]) (by simp [isBlank])
    exact (congrArg ofReport (by decide +kernel)).trans (h.trans hok)

end DiskWatch.Usage.Blocks
