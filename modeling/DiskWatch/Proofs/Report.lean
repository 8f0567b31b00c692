/-
DiskWatch/Proofs/Report.lean

A report of directory sizes as it is printed, and what is read from it.  The
directories of a report lie at or below a base; each of them is given by the
names that lead to it from there.  Its row is the size, a tab and its path, which
may be printed with any number of separators at its end, and there may be blank
rows anywhere.

A row is read back one cut at a time: the rows are the lines of the report, the
size stands before the first tab, and the path behind it loses its trailing
separators.  What a path means is worked out along its names
(`components_below`), so directories with different names have different
components, each new row adds an entry, and the table of a report has the
directories of its rows and no others (`ofReport_report`).
-/
import DiskWatch.Usage.Directory
import Mathlib.Data.List.Perm.Basic

namespace DiskWatch

/-! ### Directories below a base -/

namespace Path

/-- The name of one step down: some text without a separator that is neither one
dot nor two. -/
structure IsName (n : String) : Prop where
  ne_empty : n ≠ ""
  separator : '/' ∉ n.toList
  ne_here : n ≠ "."
  ne_up : n ≠ ".."

instance (n : String) : Decidable (IsName n) :=
  decidable_of_iff (n ≠ "" ∧ '/' ∉ n.toList ∧ n ≠ "." ∧ n ≠ "..")
    ⟨fun ⟨he, hs, hh, hu⟩ => ⟨he, hs, hh, hu⟩, fun ⟨he, hs, hh, hu⟩ => ⟨he, hs, hh, hu⟩⟩

/-- Names, each behind a separator. -/
def steps (names : List String) : List Char := names.flatMap fun n => '/' :: n.toList

/-- The text of the directory to which some names lead from a base. -/
def belowChars (base : Path) (names : List String) : List Char :=
  if names.isEmpty then normalizeChars base.text.toList
  else Text.dropEndWhile (· == '/') base.text.toList ++ steps names

/-- The directory to which some names lead from a base. -/
def below (base : Path) (names : List String) : Path := ⟨String.ofList (belowChars base names)⟩

variable {base : Path} {names : List String} {n : String}

theorem steps_cons (n : String) (names : List String) :
    steps (n :: names) = '/' :: (n.toList ++ steps names) := by
  rw [steps, List.flatMap_cons]
  rfl

theorem IsName.toList_ne_nil (h : IsName n) : n.toList ≠ [] := by
  intro he
  exact h.ne_empty (String.toList_inj.1 he)

theorem IsName.part? (h : IsName n) : part? n.toList = some (.name n) := by
  have hne : n.toList ≠ [] := h.toList_ne_nil
  have hhere : n.toList ≠ ['.'] := fun he => h.ne_here (String.toList_inj.1 he)
  have hup : n.toList ≠ ['.', '.'] := fun he => h.ne_up (String.toList_inj.1 he)
  unfold Path.part?
  split
  · contradiction
  · contradiction
  · contradiction
  · rw [String.ofList_toList]

theorem IsName.pieces (h : IsName n) : Text.pieces (· == '/') n.toList = [n.toList] := by
  apply Text.pieces_of_forall
  intro c hc
  rw [beq_eq_false_iff_ne]
  rintro rfl
  exact h.separator hc

/-- Each name behind a separator is one more component. -/
theorem filterMap_pieces_steps (hn : ∀ n ∈ names, IsName n) (cs : List Char) :
    (Text.pieces (· == '/') (cs ++ steps names)).filterMap part? =
      (Text.pieces (· == '/') cs).filterMap part? ++ names.map .name := by
  induction names generalizing cs with
  | nil => simp [steps]
  | cons n names ih =>
    obtain ⟨hname, hnames⟩ := List.forall_mem_cons.1 hn
    rw [steps_cons, Text.pieces_append (p := (· == '/')) (beq_self_eq_true '/'),
      List.filterMap_append, ih hnames, hname.pieces]
    simp [hname.part?]

/-- Without its trailing separators an absolute text is nothing or still absolute. -/
theorem dropEndWhile_of_isAbsolute (hb : base.isAbsolute) :
    Text.dropEndWhile (· == '/') base.text.toList = [] ∨
      ∃ rest, Text.dropEndWhile (· == '/') base.text.toList = '/' :: rest := by
  have hprefix := Text.dropEndWhile_prefix (· == '/') base.text.toList
  rw [isAbsolute, beq_iff_eq] at hb
  cases hstem : Text.dropEndWhile (· == '/') base.text.toList with
  | nil => exact .inl rfl
  | cons c rest =>
    rw [hstem] at hprefix
    obtain ⟨more, hmore⟩ := hprefix
    rw [← hmore] at hb
    obtain rfl : c = '/' := Option.some.inj hb
    exact .inr ⟨rest, rfl⟩

/-- The components of a directory are those of the base and its names. -/
theorem components_below (hb : base.isAbsolute) (hn : ∀ n ∈ names, IsName n) :
    (below base names).components = base.normalize.components ++ names.map .name := by
  have hroot : ∀ cs, componentsOf ('/' :: cs) =
      .root :: (Text.pieces (· == '/') cs).filterMap part? := fun _ => rfl
  cases names with
  | nil => simp [below, belowChars, normalize]
  | cons n names =>
    have hnorm : base.normalize.components =
        componentsOf (normalizeChars base.text.toList) := by
      rw [components, normalize, String.toList_ofList]
    have hbelow : (below base (n :: names)).components = componentsOf
        (Text.dropEndWhile (· == '/') base.text.toList ++ steps (n :: names)) := by
      rw [components, below, String.toList_ofList]
      rfl
    rw [hnorm, hbelow, normalizeChars]
    rw [isAbsolute] at hb
    rcases dropEndWhile_of_isAbsolute hb with hstem | ⟨rest, hstem⟩
    · -- below the root the first name starts the text
      obtain ⟨hname, hnames⟩ := List.forall_mem_cons.1 hn
      simp only [hstem, hb, List.isEmpty_nil, Bool.and_self, if_true, List.nil_append]
      rw [steps_cons, hroot, hroot, filterMap_pieces_steps hnames, hname.pieces,
        List.filterMap_cons_some hname.part?]
      rfl
    · simp only [hstem, List.isEmpty_cons, Bool.false_and, Bool.false_eq_true, if_false]
      rw [hroot, List.cons_append, hroot, filterMap_pieces_steps hn]
      rfl

/-- Trailing separators of a text leave no trace. -/
theorem normalizeChars_append {cs : List Char} (hne : cs ≠ []) (count : Nat) :
    normalizeChars (cs ++ List.replicate count '/') = normalizeChars cs := by
  have hdrop : Text.dropEndWhile (· == '/') (cs ++ List.replicate count '/') =
      Text.dropEndWhile (· == '/') cs := by
    apply Text.dropEndWhile_append
    intro c hc
    rw [List.eq_of_mem_replicate hc]
    rfl
  have hhead : (cs ++ List.replicate count '/').head? = cs.head? :=
    List.head?_append_of_ne_nil cs hne
  rw [normalizeChars, normalizeChars, hdrop, hhead]

theorem belowChars_ne_nil (hb : base.isAbsolute) (names : List String) :
    belowChars base names ≠ [] := by
  cases names with
  | nil =>
    rw [isAbsolute] at hb
    rcases dropEndWhile_of_isAbsolute hb with hstem | ⟨rest, hstem⟩
    · simp [belowChars, normalizeChars, hstem, hb]
    · simp [belowChars, normalizeChars, hstem]
  | cons n names => simp [belowChars, steps_cons]

/-- The last character of some names is no separator. -/
theorem getLast?_steps (hn : ∀ n ∈ names, IsName n) (hne : names ≠ []) {c : Char}
    (hc : (steps names).getLast? = some c) : c ≠ '/' := by
  obtain ⟨init, last, rfl⟩ := (List.eq_nil_or_concat' names).resolve_left hne
  have hlast : IsName last := hn last (by simp)
  have hsteps : steps (init ++ [last]) = (steps init ++ ['/']) ++ last.toList := by
    simp [steps]
  rw [hsteps, List.getLast?_append_of_ne_nil _ hlast.toList_ne_nil] at hc
  rintro rfl
  exact hlast.separator (List.mem_of_getLast? hc)

/-- The text of a directory has no trailing separators to lose. -/
theorem normalizeChars_belowChars (hn : ∀ n ∈ names, IsName n) :
    normalizeChars (belowChars base names) = belowChars base names := by
  cases names with
  | nil => exact normalizeChars_idem _
  | cons n names =>
    have hdrop : Text.dropEndWhile (· == '/') (belowChars base (n :: names)) =
        belowChars base (n :: names) := by
      apply Text.dropEndWhile_of_getLast?
      intro c hc
      have hsteps : steps (n :: names) ≠ [] := by simp [steps_cons]
      rw [belowChars, List.isEmpty_cons, if_neg Bool.false_ne_true,
        List.getLast?_append_of_ne_nil _ hsteps] at hc
      exact beq_false_of_ne (getLast?_steps hn (List.cons_ne_nil n names) hc)
    have hne : (belowChars base (n :: names)).isEmpty = false := by
      simp [belowChars, steps_cons]
    rw [normalizeChars, hdrop, hne, Bool.false_and, if_neg Bool.false_ne_true]

theorem notMem_belowChars {c : Char} (hc : c ≠ '/') (hb : c ∉ base.text.toList)
    (hn : ∀ n ∈ names, c ∉ n.toList) : c ∉ belowChars base names := by
  have hdrop : c ∉ Text.dropEndWhile (· == '/') base.text.toList := by
    intro hmem
    exact hb ((Text.dropEndWhile_prefix _ _).subset hmem)
  have hsteps : c ∉ steps names := by
    intro hmem
    obtain ⟨n, hmem, hcn⟩ := List.mem_flatMap.1 hmem
    rcases List.mem_cons.1 hcn with rfl | hcn
    · exact hc rfl
    · exact hn n hmem hcn
  rw [belowChars, normalizeChars]
  split
  · split
    · simpa using hc
    · exact hdrop
  · simpa using ⟨hdrop, hsteps⟩

/-- Different names lead to different directories. -/
theorem below_injective (hb : base.isAbsolute) {other : List String}
    (hn : ∀ n ∈ names, IsName n) (ho : ∀ n ∈ other, IsName n)
    (h : (below base names).components = (below base other).components) : names = other := by
  rw [components_below hb hn, components_below hb ho] at h
  exact List.map_injective_iff.2 (fun _ _ => Component.name.inj) (List.append_cancel_left h)

end Path

/-! ### Rows -/

namespace Usage

/-- A row of a report: a directory below the base with its size in blocks,
printed with so many separators behind its path, or white space. -/
inductive Row
  | entry (names : List String) (blocks : UInt64) (slashes : Nat)
  | blank (space : List Char)

namespace Row

variable {base : Path} {names : List String} {blocks : UInt64} {slashes : Nat} {row : Row}

/-- The path of a directory as it is printed. -/
def printed (base : Path) (names : List String) (slashes : Nat) : List Char :=
  Path.belowChars base names ++ List.replicate slashes '/'

/-- The line of a row. -/
def line (base : Path) : Row → List Char
  | entry names blocks slashes =>
    Text.decimal blocks.toNat ++ '\t' :: printed base names slashes
  | blank space => space

/-- The directory of a row and its size. -/
def directory? : Row → Option (List String × UInt64)
  | entry names blocks _ => some (names, blocks)
  | blank _ => none

/-- A row that can be told from the others by its line: no line ends within it,
the printed path ends in something visible, and there are fewer than 2^32 names. -/
def Proper (base : Path) : Row → Prop
  | entry names _ slashes =>
    (∀ n ∈ names, Path.IsName n ∧ '\n' ∉ n.toList) ∧ names.length < UInt32.size ∧
      (printed base names slashes).getLast?.any Text.isBlank = false
  | blank space => Text.allBlank space = true ∧ '\n' ∉ space

instance (base : Path) : (row : Row) → Decidable (row.Proper base)
  | entry names _ slashes => inferInstanceAs (Decidable (
      (∀ n ∈ names, Path.IsName n ∧ '\n' ∉ n.toList) ∧ names.length < UInt32.size ∧
        (printed base names slashes).getLast?.any Text.isBlank = false))
  | blank space => inferInstanceAs (Decidable (Text.allBlank space = true ∧ '\n' ∉ space))

/-- The entry of a directory in a table. -/
def tableEntry (base : Path) (d : List String × UInt64) : Path × UInt64 := (base.below d.1, d.2)

theorem printed_ne_nil (hb : base.isAbsolute) (names : List String) (slashes : Nat) :
    printed base names slashes ≠ [] := by
  intro he
  exact Path.belowChars_ne_nil hb names (List.append_eq_nil_iff.1 he).1

/-- A size is written in digits, none of which is white space. -/
theorem visible_decimal (n : Nat) : ∀ c ∈ Text.decimal n, Text.isBlank c = false := by
  intro c hc
  have hdigit : (Text.digit? c).isSome := Text.decimal_digits n c hc
  have hrange : '0' ≤ c ∧ c ≤ '9' := by
    by_contra hnot
    rw [Text.digit?, if_neg hnot] at hdigit
    cases hdigit
  have hlow : 48 ≤ c.toNat := UInt32.le_iff_toNat_le.1 hrange.1
  have hhigh : c.toNat ≤ 57 := UInt32.le_iff_toNat_le.1 hrange.2
  simp [Text.isBlank]
  omega

theorem notMem_decimal {c : Char} (hc : Text.isBlank c = true) (n : Nat) : c ∉ Text.decimal n := by
  intro hmem
  exact Bool.noConfusion ((visible_decimal n c hmem).symm.trans hc)

/-- The line of a directory is read back. -/
theorem ofLine_entry (hb : base.isAbsolute) (h : (entry names blocks slashes).Proper base) :
    SizeTable.ofLine ((entry names blocks slashes).line base) =
      .ok (tableEntry base (names, blocks)) := by
  obtain ⟨hn, -, hend⟩ := h
  rw [Option.any_eq_false] at hend
  have hcut : SizeTable.cut? ((entry names blocks slashes).line base) =
      some (Text.decimal blocks.toNat, printed base names slashes) := by
    have htab : ∀ c ∈ Text.decimal blocks.toNat, (c == '\t') = false := by
      intro c hc
      apply beq_false_of_ne
      rintro rfl
      exact notMem_decimal (by decide) _ hc
    rw [SizeTable.cut?, line, Text.cutAt_append htab (beq_self_eq_true '\t')]
    rfl
  have hsize : Text.readWord (Text.trim (Text.decimal blocks.toNat)) = .ok blocks := by
    rw [Text.trim_of_forall (visible_decimal _), Text.readWord_decimal]
  have hpath : Path.normalizeChars (Text.trimEnd (printed base names slashes)) =
      Path.belowChars base names := by
    rw [Text.trimEnd, Text.dropEndWhile_of_getLast? hend, printed,
      Path.normalizeChars_append (Path.belowChars_ne_nil hb names),
      Path.normalizeChars_belowChars fun n hmem => (hn n hmem).1]
  simp only [SizeTable.ofLine, hcut, hsize, hpath]
  rfl

/-- A directory has a line that is seen, ends in no carriage return and goes on
to no other line. -/
theorem line_entry (hb : base.isAbsolute) (hbase : '\n' ∉ base.text.toList)
    (h : (entry names blocks slashes).Proper base) :
    Text.allBlank ((entry names blocks slashes).line base) = false ∧
      ((entry names blocks slashes).line base).getLast? ≠ some '\r' ∧
      '\n' ∉ (entry names blocks slashes).line base := by
  obtain ⟨hn, -, hend⟩ := h
  rw [Option.any_eq_false] at hend
  refine ⟨?_, ?_, ?_⟩
  · obtain ⟨c, cs, hc⟩ := List.exists_cons_of_ne_nil (Text.decimal_ne_nil blocks.toNat)
    have hvisible := visible_decimal blocks.toNat c (hc ▸ List.mem_cons_self)
    simp [line, hc, Text.allBlank, hvisible]
  · intro hlast
    rw [line, List.getLast?_append_of_ne_nil _ (List.cons_ne_nil _ _),
      List.getLast?_cons_of_ne_nil (printed_ne_nil hb names slashes)] at hlast
    exact absurd (hend '\r' hlast) (by decide)
  · have hpath : '\n' ∉ printed base names slashes := by
      intro hmem
      rcases List.mem_append.1 hmem with hmem | hmem
      · exact Path.notMem_belowChars (by decide) hbase (fun n hname => (hn n hname).2) hmem
      · exact absurd (List.eq_of_mem_replicate hmem) (by decide)
    have hsize : '\n' ∉ Text.decimal blocks.toNat := notMem_decimal (by decide) _
    simpa [line] using ⟨hsize, hpath⟩

end Row

/-! ### Reports -/

section Report

variable {base : Path} {rows : List Row}

/-- The report that consists of some rows. -/
def report (base : Path) (rows : List Row) : String :=
  String.ofList (['\n'].intercalate (rows.map (Row.line base)))

/-- The directories of some rows, with their sizes. -/
def directories (rows : List Row) : List (List String × UInt64) := rows.filterMap Row.directory?

/-- The lines of a report that are seen are those of its directories. -/
theorem visibleLines_report (hb : base.isAbsolute) (hbase : '\n' ∉ base.text.toList)
    (h : ∀ row ∈ rows, row.Proper base) :
    Text.visibleLines (report base rows).toList =
      (rows.map (Row.line base)).filter (!Text.allBlank ·) := by
  rw [report, String.toList_ofList]
  apply Text.visibleLines_intercalate
  · intro l hl
    obtain ⟨row, hrow, rfl⟩ := List.mem_map.1 hl
    cases row with
    | entry names blocks slashes => exact (Row.line_entry hb hbase (h _ hrow)).2.2
    | blank space => exact (h _ hrow).2
  · intro l hl
    obtain ⟨row, hrow, rfl⟩ := List.mem_map.1 hl
    cases row with
    | entry names blocks slashes => exact .inr (Row.line_entry hb hbase (h _ hrow)).2.1
    | blank space => exact .inl (h _ hrow).1

/-- Rows with new directories add their entries to a table, and nothing else. -/
theorem addLines_rows (table : SizeTable) (hb : base.isAbsolute) (hbase : '\n' ∉ base.text.toList)
    (h : ∀ row ∈ rows, row.Proper base)
    (hnew : (directories rows).Pairwise fun d e =>
      (base.below d.1).components ≠ (base.below e.1).components)
    (hfree : ∀ d ∈ directories rows, ∀ e ∈ table.entries,
      (base.below d.1).components ≠ e.1.components) :
    ∃ t, SizeTable.addLines table ((rows.map (Row.line base)).filter (!Text.allBlank ·)) = .ok t ∧
      t.entries.Perm (table.entries ++ (directories rows).map (Row.tableEntry base)) := by
  induction rows generalizing table with
  | nil => exact ⟨table, rfl, by simp [directories]⟩
  | cons row rows ih =>
    obtain ⟨hrow, hrows⟩ := List.forall_mem_cons.1 h
    cases row with
    | blank space =>
      have hblank : Text.allBlank (Row.line base (.blank space)) = true := hrow.1
      rw [List.map_cons, List.filter_cons, hblank]
      exact ih table hrows hnew hfree
    | entry names blocks slashes =>
      have hvisible := (Row.line_entry hb hbase hrow).1
      have hd : directories (.entry names blocks slashes :: rows) =
          (names, blocks) :: directories rows := rfl
      rw [hd] at hnew hfree ⊢
      obtain ⟨hhead, htail⟩ := List.pairwise_cons.1 hnew
      obtain ⟨hfirst, hothers⟩ := List.forall_mem_cons.1 hfree
      -- the entry goes into the table, and is then one that the rest must not meet
      have hperm : (table.insert (base.below names) blocks).entries.Perm
          (Row.tableEntry base (names, blocks) :: table.entries) :=
        Entries.insertWith_perm hfirst
      have hfree' : ∀ d ∈ directories rows,
          ∀ e ∈ (table.insert (base.below names) blocks).entries,
            (base.below d.1).components ≠ e.1.components := by
        intro d hmem e he
        rcases List.mem_cons.1 (hperm.subset he) with rfl | he
        · exact (hhead d hmem).symm
        · exact hothers d hmem e he
      obtain ⟨t, hadd, ht⟩ := ih _ hrows htail hfree'
      refine ⟨t, ?_, ?_⟩
      · rw [List.map_cons, List.filter_cons, hvisible]
        simp only [Bool.not_false, if_true, SizeTable.addLines, Row.ofLine_entry hb hrow]
        exact hadd
      · rw [List.map_cons]
        have hmoved := hperm.append_right ((directories rows).map (Row.tableEntry base))
        exact ht.trans (hmoved.trans List.perm_middle.symm)

theorem isName_of_mem (h : ∀ row ∈ rows, row.Proper base) {d : List String × UInt64}
    (hd : d ∈ directories rows) : ∀ n ∈ d.1, Path.IsName n := by
  obtain ⟨row, hrow, hdir⟩ := List.mem_filterMap.1 hd
  cases row with
  | entry names blocks slashes =>
    cases hdir
    intro n hn
    exact ((h _ hrow).1 n hn).1
  | blank space => cases hdir

/-- Different directories differ in their components. -/
theorem components_pairwise (hb : base.isAbsolute) (h : ∀ row ∈ rows, row.Proper base)
    (hd : ((directories rows).map Prod.fst).Nodup) :
    (directories rows).Pairwise fun d e =>
      (base.below d.1).components ≠ (base.below e.1).components := by
  apply (List.pairwise_map.1 hd).imp_of_mem
  intro d e hdm hem hne heq
  exact hne (Path.below_injective hb (isName_of_mem h hdm) (isName_of_mem h hem) heq)

/-- Something is seen of a report when it has a directory. -/
theorem visible_eq_nil_iff (hb : base.isAbsolute) (hbase : '\n' ∉ base.text.toList)
    (h : ∀ row ∈ rows, row.Proper base) :
    (rows.map (Row.line base)).filter (!Text.allBlank ·) = [] ↔ directories rows = [] := by
  rw [List.filter_eq_nil_iff, directories, List.filterMap_eq_nil_iff, List.forall_mem_map]
  apply forall₂_congr
  intro row hrow
  cases row with
  | entry names blocks slashes =>
    simp [(Row.line_entry hb hbase (h _ hrow)).1, Row.directory?]
  | blank space =>
    have hblank : Text.allBlank (Row.line base (.blank space)) = true := (h _ hrow).1
    simp [hblank, Row.directory?]

/-- The report of some directories is read into the table of these directories, and
a report without any gives nothing to read. -/
theorem ofReport_report (hb : base.isAbsolute) (hbase : '\n' ∉ base.text.toList)
    (h : ∀ row ∈ rows, row.Proper base) (hd : ((directories rows).map Prod.fst).Nodup) :
    (directories rows = [] → SizeTable.ofReport (report base rows) = .error .noOutput) ∧
    (directories rows ≠ [] → ∃ t, SizeTable.ofReport (report base rows) = .ok t ∧
      t.entries.Perm ((directories rows).map (Row.tableEntry base))) := by
  have hlines : SizeTable.ofReport (report base rows) =
      SizeTable.ofLines ((rows.map (Row.line base)).filter (!Text.allBlank ·)) := by
    rw [SizeTable.ofReport, visibleLines_report hb hbase h]
  refine ⟨fun hnone => ?_, fun hsome => ?_⟩
  · rw [hlines, (visible_eq_nil_iff hb hbase h).2 hnone]
    rfl
  · have hvisible := mt (visible_eq_nil_iff hb hbase h).1 hsome
    obtain ⟨t, hadd, ht⟩ := addLines_rows .empty hb hbase h
      (components_pairwise hb h hd) (fun _ _ _ he => nomatch he)
    refine ⟨t, ?_, ht⟩
    rw [hlines, SizeTable.ofLines, if_neg (by simpa using hvisible)]
    exact hadd

end Report

end Usage

end DiskWatch
