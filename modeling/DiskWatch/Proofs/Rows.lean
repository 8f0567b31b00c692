/-
DiskWatch/Proofs/Rows.lean

The two forms in which a report gives the row of a file system.  On a single line the
columns of numbers stand behind the device; a wrapped row has the device on a line of
its own and the columns on the next one.

What a line is read as depends on its words alone, and these are the columns whatever
white space is between them (`DeviceRow.words_single`, `DeviceRow.words_columns`).  A
wrapped row is always read as it was printed.  A row on a single line is read as it was
printed if its device is no number; if it is one, it is taken for the size, and the
columns behind it are read one place off (`single_and_wrapped`).
-/
import DiskWatch.Proofs.Report

namespace DiskWatch.Usage

open Text (words)

/-! ### Rows -/

/-- White space between two columns of a line. -/
structure Gap where
  chars : List Char
  ne_nil : chars ≠ []
  blank : ∀ c ∈ chars, Text.isBlank c = true
  one_line : '\n' ∉ chars

/-- A single space. -/
def Gap.space : Gap where
  chars := [' ']
  ne_nil := List.cons_ne_nil ' ' []
  blank := by
    intro c hc
    rw [List.mem_singleton.1 hc]
    rfl
  one_line := by decide

/-- A row of a report on file systems, with the white space before each of its columns
but the first. -/
structure DeviceRow where
  device : List Char
  size : UInt64
  used : UInt64
  available : UInt64
  /-- The part that is used, in whatever notation. -/
  use : List Char
  mountPoint : List Char
  gap : Fin 5 → Gap
  device_ne_nil : device ≠ []
  device_visible : ∀ c ∈ device, Text.isBlank c = false
  use_one_line : '\n' ∉ use
  mountPoint_one_line : '\n' ∉ mountPoint

namespace DeviceRow

variable (row : DeviceRow)

/-- The columns behind the device. -/
def columns : List Char :=
  Text.decimal row.size.toNat ++ ((row.gap 1).chars ++
    (Text.decimal row.used.toNat ++ ((row.gap 2).chars ++
      (Text.decimal row.available.toNat ++ ((row.gap 3).chars ++
        (row.use ++ ((row.gap 4).chars ++ row.mountPoint)))))))

/-- The row on a single line. -/
def single : List Char := row.device ++ ((row.gap 0).chars ++ row.columns)

/-- The row on two lines, the second one with an indentation. -/
def wrapped (indent : List Char) : List Char := row.device ++ '\n' :: (indent ++ row.columns)

theorem words_columns : ∃ more, words row.columns =
    Text.decimal row.size.toNat :: Text.decimal row.used.toNat ::
      Text.decimal row.available.toNat :: more := by
  have hword : ∀ n, words (Text.decimal n) = [Text.decimal n] := fun n =>
    Text.words_of_forall (Row.visible_decimal n) (Text.decimal_ne_nil n)
  have hgap : ∀ i xs ys, words (xs ++ ((row.gap i).chars ++ ys)) = words xs ++ words ys :=
    fun i => Text.words_append_append (row.gap i).blank (row.gap i).ne_nil
  refine ⟨words (row.use ++ ((row.gap 4).chars ++ row.mountPoint)), ?_⟩
  rw [columns, hgap, hgap, hgap, hword, hword, hword]
  rfl

theorem words_single : words row.single = row.device :: words row.columns := by
  rw [single, Text.words_append_append (row.gap 0).blank (row.gap 0).ne_nil,
    Text.words_of_forall row.device_visible row.device_ne_nil]
  rfl

theorem columns_one_line : '\n' ∉ row.columns := by
  have hnumber : ∀ n, '\n' ∉ Text.decimal n := Row.notMem_decimal (by decide)
  simp only [columns, List.mem_append, not_or]
  exact ⟨hnumber _, (row.gap 1).one_line, hnumber _, (row.gap 2).one_line, hnumber _,
    (row.gap 3).one_line, row.use_one_line, (row.gap 4).one_line, row.mountPoint_one_line⟩

theorem device_one_line : '\n' ∉ row.device := by
  intro hmem
  exact Bool.noConfusion (row.device_visible '\n' hmem)

theorem single_one_line : '\n' ∉ row.single := by
  simp only [single, List.mem_append, not_or]
  exact ⟨row.device_one_line, (row.gap 0).one_line, row.columns_one_line⟩

end DeviceRow

/-! ### Reading a row -/

namespace Blocks

variable {line line' : List Char} {ls : List (List Char)} {blocks : Blocks}

theorem ofLine?_congr (h : words line = words line') : ofLine? line = ofLine? line' := by
  rw [ofLine?, ofLine?, h]

/-- The columns are read as they were printed. -/
theorem ofLine?_columns (row : DeviceRow) :
    ofLine? row.columns = some ⟨row.size, row.available⟩ := by
  obtain ⟨more, hwords⟩ := row.words_columns
  simp [ofLine?, hwords, ofFields?, Text.readWord?_decimal]

/-- Behind a device that is no number the columns are read as they were printed, and
behind one that is a number they are read one place off. -/
theorem ofLine?_single (row : DeviceRow) : ofLine? row.single =
    some ((Text.readWord? row.device).elim ⟨row.size, row.available⟩ (⟨·, row.used⟩)) := by
  obtain ⟨more, hwords⟩ := row.words_columns
  rw [ofLine?, row.words_single, hwords]
  cases hd : Text.readWord? row.device with
  | none => simp [ofFields?, hd, Text.readWord?_decimal]
  | some n => simp [ofFields?, hd, Text.readWord?_decimal]

/-- A device alone is no row. -/
theorem ofLine?_device (row : DeviceRow) : ofLine? row.device = none := by
  rw [ofLine?, Text.words_of_forall row.device_visible row.device_ne_nil]
  rfl

theorem ofLines_of_found (hne : ls ≠ [])
    (h : (ls.tail.findSome? ofLine? <|> ls.reverse.findSome? ofLine?) = some blocks) :
    ofLines ls = .ok blocks := by
  rw [ofLines, List.isEmpty_eq_false_iff.2 hne, if_neg Bool.false_ne_true, h]

/-- The last line counts if no line between the heading and it is a row. -/
theorem ofLines_last (heading : List Char) (hline : ofLine? line = some blocks)
    (hls : ∀ l ∈ ls, ofLine? l = none) :
    ofLines ([heading].filter (!Text.allBlank ·) ++ (ls ++ [line])) = .ok blocks := by
  have hlast : ∀ {ks : List (List Char)}, (∀ l ∈ ks, ofLine? l = none) →
      (ks ++ [line]).findSome? ofLine? = some blocks := by
    intro ks hks
    rw [List.findSome?_append, List.findSome?_eq_none_iff.2 hks]
    simp [hline]
  have hback : ∀ ks, (ks ++ [line]).reverse.findSome? ofLine? = some blocks := by simp [hline]
  apply ofLines_of_found (by simp)
  rw [← List.append_assoc, hback, List.filter_singleton]
  cases Text.allBlank heading with
  | false =>
    -- the heading is seen, and the row is found behind it
    show ((ls ++ [line]).findSome? ofLine? <|> some blocks) = some blocks
    rw [hlast hls]
    rfl
  | true =>
    -- the first line after the heading is taken for it
    cases ls with
    | nil => rfl
    | cons first ls =>
      show ((ls ++ [line]).findSome? ofLine? <|> some blocks) = some blocks
      rw [hlast (List.forall_mem_cons.1 hls).2]
      rfl

end Blocks

/-! ### Reports -/

section Report

variable {header indent ending : List Char}

/-- The report of a heading and a row, with or without the end of the last line. -/
def rowReport (header row ending : List Char) : String :=
  String.ofList (header ++ '\n' :: (row ++ ending))

variable (row : DeviceRow)

theorem ofReport_single (hheader : '\n' ∉ header) (hending : ending = [] ∨ ending = ['\n']) :
    Blocks.ofReport (rowReport header row.single ending) =
      .ok ((Text.readWord? row.device).elim ⟨row.size, row.available⟩ (⟨·, row.used⟩)) := by
  have hwords : words row.single ≠ [] := by simp [row.words_single]
  obtain ⟨l, hl, hsame⟩ := Text.visibleLines_last row.single_one_line hwords hending
  have hline := (Blocks.ofLine?_congr hsame).trans (Blocks.ofLine?_single row)
  have hnone : ∀ k ∈ ([] : List (List Char)), Blocks.ofLine? k = none := by simp
  rw [Blocks.ofReport, rowReport, String.toList_ofList, Text.visibleLines_append hheader, hl]
  exact Blocks.ofLines_last _ hline hnone

theorem ofReport_wrapped (hheader : '\n' ∉ header)
    (hindent : ∀ c ∈ indent, Text.isBlank c = true ∧ c ≠ '\n')
    (hending : ending = [] ∨ ending = ['\n']) :
    Blocks.ofReport (rowReport header (row.wrapped indent) ending) =
      .ok ⟨row.size, row.available⟩ := by
  have hcolumns : words (indent ++ row.columns) = words row.columns :=
    Text.words_blank_append (fun c hc => (hindent c hc).1) _
  have hwords : words (indent ++ row.columns) ≠ [] := by
    obtain ⟨more, hmore⟩ := row.words_columns
    simp [hcolumns, hmore]
  have hone : '\n' ∉ indent ++ row.columns := by
    simp only [List.mem_append, not_or]
    exact ⟨fun hmem => (hindent _ hmem).2 rfl, row.columns_one_line⟩
  obtain ⟨l, hl, hsame⟩ := Text.visibleLines_last hone hwords hending
  have hline := (Blocks.ofLine?_congr (hsame.trans hcolumns)).trans (Blocks.ofLine?_columns row)
  -- the line of the device is no row
  have hdevice : ∀ k ∈ [Text.dropReturn row.device].filter (!Text.allBlank ·),
      Blocks.ofLine? k = none := by
    intro k hk
    obtain rfl := List.mem_singleton.1 (List.mem_filter.1 hk).1
    rw [Blocks.ofLine?_congr (Text.words_dropReturn row.device), Blocks.ofLine?_device]
  rw [Blocks.ofReport, rowReport, String.toList_ofList, Text.visibleLines_append hheader,
    DeviceRow.wrapped, List.append_assoc, List.cons_append,
    Text.visibleLines_append row.device_one_line, hl]
  exact Blocks.ofLines_last _ hline hdevice

/-- Whatever the heading, and however much white space is between the columns: a wrapped
row is read as its size and its available blocks.  So is a row on a single line if its
device is no number.  If it is one, it is taken for the size, and what is used for what
is available; so the two forms agree if and only if the device is no number or the
numbers happen to be the same. -/
theorem single_and_wrapped (row : DeviceRow) (header indent ending : List Char)
    (hheader : '\n' ∉ header) (hindent : ∀ c ∈ indent, Text.isBlank c = true ∧ c ≠ '\n')
    (hending : ending = [] ∨ ending = ['\n']) :
    Blocks.ofReport (rowReport header (row.wrapped indent) ending) =
      .ok ⟨row.size, row.available⟩ ∧
    Blocks.ofReport (rowReport header row.single ending) =
      .ok ((Text.readWord? row.device).elim ⟨row.size, row.available⟩ (⟨·, row.used⟩)) ∧
    (Blocks.ofReport (rowReport header row.single ending) =
        Blocks.ofReport (rowReport header (row.wrapped indent) ending) ↔
      ∀ n, Text.readWord? row.device = some n → n = row.size ∧ row.used = row.available) := by
  have hsingle := ofReport_single row hheader hending
  have hwrapped := ofReport_wrapped row hheader hindent hending
  refine ⟨hwrapped, hsingle, ?_⟩
  rw [hsingle, hwrapped]
  cases Text.readWord? row.device with
  | none => simp
  | some n => simp

/-- A device of digits: the report of the wrapped row gives a size of 100 blocks, that of
the single line 1234. -/
theorem single_and_wrapped_of_number : ∃ row : DeviceRow,
    row.single = "1234 100 20 80 20% /mnt".toList ∧
    row.wrapped [' '] = "1234\n 100 20 80 20% /mnt".toList ∧
    Blocks.ofReport (rowReport "Filesystem".toList (row.wrapped [' ']) ['\n']) = .ok ⟨100, 80⟩ ∧
    Blocks.ofReport (rowReport "Filesystem".toList row.single ['\n']) = .ok ⟨1234, 20⟩ := by
  let row : DeviceRow :=
    { device := Text.decimal 1234, size := 100, used := 20, available := 80
      use := "20%".toList, mountPoint := "/mnt".toList, gap := fun _ => .space
      device_ne_nil := Text.decimal_ne_nil 1234
      device_visible := Row.visible_decimal 1234
      use_one_line := by decide
      mountPoint_one_line := by decide }
  have hindent : ∀ c ∈ [' '], Text.isBlank c = true ∧ c ≠ '\n' := by
    intro c hc
    rw [List.mem_singleton.1 hc]
    decide
  obtain ⟨hwrapped, hsingle, -⟩ := single_and_wrapped row "Filesystem".toList [' '] ['\n']
    (by decide) hindent (.inr rfl)
  have hdevice : Text.readWord? row.device = some 1234 := Text.readWord?_decimal 1234
  rw [hdevice] at hsingle
  exact ⟨row, by decide +kernel, by decide +kernel, hwrapped, hsingle⟩

/-- The same row in both forms, with a device of digits: the wrapped one is read as it was
printed, the single line is not. -/
theorem number_taken_for_size :
    Blocks.ofReport
      "Filesystem 1K-blocks Used Available Use% Mounted on\n1234\n 100 20 80 20% /mnt\n" =
        .ok ⟨100, 80⟩ ∧
    Blocks.ofReport
      "Filesystem 1K-blocks Used Available Use% Mounted on\n1234 100 20 80 20% /mnt\n" =
        .ok ⟨1234, 20⟩ := by
  decide +kernel

end Report

end DiskWatch.Usage
