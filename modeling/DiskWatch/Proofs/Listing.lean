/-
DiskWatch/Proofs/Listing.lean

A listing of directories: a line for each row, with the size, a tab and the path as it
is, whatever characters it has.  A listing is always read.  The size is found again,
because its digits end at the first tab, but not always the path: of the text behind the
tab the white space at its end is cut off, and after that the separators (`cutBack`).

So a path that ends in white space comes out as another path, and if that one is listed
too, the two share an entry and one size is lost.  Whenever some path ends so, not every
row can find its path in the table: the text of the longest of these paths could only
stem from a longer one (`exists_longer`).  If no path ends in white space, every row has an
entry of its own (`own_entries_iff`).
-/
import DiskWatch.Proofs.Reading
import DiskWatch.Proofs.Report
import Mathlib.Data.List.MinMax
import Mathlib.Data.List.Pairwise

namespace DiskWatch

/-! ### Cutting back -/

namespace Text

theorem dropReturn_append_cons (xs : List Char) {c : Char} (hc : c ≠ '\r') (ys : List Char) :
    dropReturn (xs ++ c :: ys) = xs ++ c :: dropReturn ys := by
  cases ys with
  | nil =>
    apply dropReturn_of_ne
    rw [List.getLast?_concat]
    exact fun he => hc (Option.some.inj he)
  | cons y ys =>
    have hlast : (xs ++ c :: y :: ys).getLast? = (y :: ys).getLast? := by
      rw [List.getLast?_append_of_ne_nil _ (List.cons_ne_nil _ _),
        List.getLast?_cons_of_ne_nil (List.cons_ne_nil y ys)]
    have hinit : (xs ++ c :: y :: ys).dropLast = xs ++ c :: (y :: ys).dropLast := by
      rw [List.dropLast_append_of_ne_nil (List.cons_ne_nil _ _), List.dropLast_cons_cons]
    rw [dropReturn, dropReturn, hlast, hinit]
    split <;> rfl

/-- A carriage return is white space. -/
theorem trimEnd_dropReturn (cs : List Char) : trimEnd (dropReturn cs) = trimEnd cs := by
  rw [dropReturn]
  split
  · next h =>
    obtain ⟨init, rfl⟩ := List.getLast?_eq_some_iff.1 h
    rw [List.dropLast_concat, trimEnd, trimEnd, dropEndWhile_append]
    intro c hc
    rw [List.mem_singleton.1 hc]
    rfl
  · rfl

end Text

namespace Path

/-- The path without the white space at its end and then without the separators there;
the root stays. -/
def cutBack (p : Path) : Path := ⟨String.ofList (normalizeChars (Text.trimEnd p.text.toList))⟩

/-- Whether the text of the path ends in white space. -/
def endsBlank (p : Path) : Bool := p.text.toList.getLast?.any Text.isBlank

variable {p q : Path}

theorem endsBlank_iff : p.endsBlank = true ↔
    ∃ init c, p.text.toList = init ++ [c] ∧ Text.isBlank c = true := by
  simp only [endsBlank, Option.any_eq_true, List.getLast?_eq_some_iff]
  exact ⟨fun ⟨c, ⟨init, h⟩, hc⟩ => ⟨init, c, h, hc⟩, fun ⟨init, c, h, hc⟩ => ⟨c, ⟨init, h⟩, hc⟩⟩

theorem cutBack_of_visible (h : p.endsBlank = false) : p.cutBack = p.normalize := by
  rw [endsBlank, Option.any_eq_false] at h
  rw [cutBack, normalize, Text.trimEnd, Text.dropEndWhile_of_getLast? h]

/-- Before white space there are no trailing separators. -/
theorem normalize_of_endsBlank (h : p.endsBlank = true) : p.normalize = p := by
  obtain ⟨init, c, htext, hc⟩ := endsBlank_iff.1 h
  have hdrop : Text.dropEndWhile (· == '/') p.text.toList = p.text.toList := by
    apply Text.dropEndWhile_of_getLast?
    intro d hd
    rw [htext, List.getLast?_concat] at hd
    cases hd
    apply beq_false_of_ne
    rintro rfl
    exact absurd hc (by decide)
  have hne : p.text.toList.isEmpty = false := by simp [htext]
  rw [normalize, normalizeChars, hdrop, hne, Bool.false_and, if_neg Bool.false_ne_true,
    String.ofList_toList]

theorem length_normalizeChars_le (cs : List Char) : (normalizeChars cs).length ≤ cs.length := by
  rw [normalizeChars]
  split
  · next h =>
    have hne : cs ≠ [] := by
      rintro rfl
      cases h
    exact List.length_pos_iff.2 hne
  · exact (Text.dropEndWhile_prefix _ cs).length_le

/-- White space at the end is lost. -/
theorem length_cutBack_lt (h : p.endsBlank = true) :
    p.cutBack.text.toList.length < p.text.toList.length := by
  obtain ⟨init, c, htext, hc⟩ := endsBlank_iff.1 h
  have htrim : Text.trimEnd p.text.toList = Text.trimEnd init := by
    rw [htext, Text.trimEnd, Text.dropEndWhile_append]
    · rfl
    · simpa using hc
  rw [cutBack, String.toList_ofList, htrim, htext, List.length_append]
  calc (normalizeChars (Text.trimEnd init)).length
    _ ≤ (Text.trimEnd init).length := length_normalizeChars_le _
    _ ≤ init.length := (Text.dropEndWhile_prefix _ init).length_le
    _ < init.length + [c].length := Nat.lt_succ_self _

end Path

/-! ### Listings -/

namespace Usage

open SizeTable (Says Cut ofReport)

variable {rows : List (Path × UInt64)} {ending : List Char}

/-- The line of a row. -/
def rowLine (r : Path × UInt64) : List Char := Text.decimal r.2.toNat ++ '\t' :: r.1.text.toList

/-- The lines of some rows one after another, the last one with an ending of its own. -/
def listingChars (ending : List Char) : List (Path × UInt64) → List Char
  | [] => []
  | [r] => rowLine r ++ ending
  | r :: s :: rows => rowLine r ++ '\n' :: listingChars ending (s :: rows)

/-- The report with a line for each row. -/
def listing (rows : List (Path × UInt64)) (ending : List Char) : String :=
  String.ofList (listingChars ending rows)

/-- What is read from a row. -/
def cutRow (r : Path × UInt64) : Path × UInt64 := (r.1.cutBack, r.2)

theorem says_line (blocks : UInt64) (text : List Char) :
    Says (Text.decimal blocks.toNat ++ '\t' :: text)
      (⟨String.ofList (Path.normalizeChars (Text.trimEnd text))⟩, blocks) := by
  have hsize : Text.trim (Text.decimal blocks.toNat) = Text.decimal blocks.toNat :=
    Text.trim_of_forall (Row.visible_decimal _)
  refine ⟨Text.decimal blocks.toNat, text, .tab (Row.notMem_decimal (by decide) _), ?_, ?_⟩
  · rw [hsize]
    exact Text.readWord_eq_ok_iff.1 (Text.readWord_decimal blocks)
  · rw [String.toList_ofList]

theorem allBlank_line (blocks : UInt64) (text : List Char) :
    Text.allBlank (Text.decimal blocks.toNat ++ text) = false := by
  obtain ⟨c, cs, hc⟩ := List.exists_cons_of_ne_nil (Text.decimal_ne_nil blocks.toNat)
  have hvisible := Row.visible_decimal blocks.toNat c (hc ▸ List.mem_cons_self)
  simp [hc, Text.allBlank, hvisible]

/-- The line of a row is seen, with the end of the line or without it, and says how large
the path is when it is cut back. -/
theorem rowLine_ended (r : Path × UInt64) :
    [Text.dropReturn (rowLine r)].filter (!Text.allBlank ·) = [Text.dropReturn (rowLine r)] ∧
      Says (Text.dropReturn (rowLine r)) (cutRow r) := by
  rw [rowLine, Text.dropReturn_append_cons _ (by decide), cutRow, Path.cutBack,
    ← Text.trimEnd_dropReturn]
  exact ⟨by simp [allBlank_line], says_line r.2 _⟩

theorem rowLine_one_line {r : Path × UInt64} (h : '\n' ∉ r.1.text.toList) : '\n' ∉ rowLine r := by
  have hsize : '\n' ∉ Text.decimal r.2.toNat := Row.notMem_decimal (by decide) _
  simpa [rowLine] using ⟨hsize, h⟩

/-- The lines of a listing that are seen are those of its rows. -/
theorem says_listing (h : ∀ r ∈ rows, '\n' ∉ r.1.text.toList)
    (hending : ending = [] ∨ ending = ['\n']) :
    List.Forall₂ Says (Text.visibleLines (listing rows ending).toList) (rows.map cutRow) := by
  rw [listing, String.toList_ofList]
  induction rows using listingChars.induct with
  | case1 => exact .nil
  | case2 r =>
    have hline := rowLine_one_line (h r List.mem_cons_self)
    rcases hending with rfl | rfl
    · have hne : rowLine r ≠ [] := by simp [rowLine]
      rw [listingChars, List.append_nil, Text.visibleLines, Text.lines_of_notMem hline hne,
        rowLine, List.filter_cons_of_pos (by simp [allBlank_line])]
      exact .cons (says_line r.2 _) .nil
    · obtain ⟨hseen, hsays⟩ := rowLine_ended r
      rw [listingChars, Text.visibleLines_append hline, hseen]
      exact .cons hsays .nil
  | case3 r s rows ih =>
    obtain ⟨hr, hrest⟩ := List.forall_mem_cons.1 h
    obtain ⟨hseen, hsays⟩ := rowLine_ended r
    rw [listingChars, Text.visibleLines_append (rowLine_one_line hr), hseen]
    exact .cons hsays (ih hrest)

/-- A listing is always read, into the table of its rows with their paths cut back. -/
theorem ofReport_listing (hne : rows ≠ []) (h : ∀ r ∈ rows, '\n' ∉ r.1.text.toList)
    (hending : ending = [] ∨ ending = ['\n']) :
    ofReport (listing rows ending) = .ok (PathTable.ofRows (rows.map cutRow)) := by
  have hsays := says_listing h hending
  refine SizeTable.ofLines_eq_ok_iff.2 ⟨fun hnil => ?_, rows.map cutRow, hsays, rfl⟩
  rw [hnil, List.forall₂_nil_left_iff, List.map_eq_nil_iff] at hsays
  exact hne hsays

/-! ### Entries of their own -/

/-- The table has the text of each row that ends in white space only if there is a longer
one. -/
theorem exists_longer (habs : ∀ r ∈ rows, r.1.isAbsolute)
    (hdiff : rows.Pairwise fun r s => r.1.components ≠ s.1.components)
    (hown : ∀ r ∈ rows, (r.1.normalize, r.2) ∈ (PathTable.ofRows (rows.map cutRow)).entries)
    {r : Path × UInt64} (hr : r ∈ rows) (hblank : r.1.endsBlank = true) :
    ∃ s ∈ rows, s.1.endsBlank = true ∧ r.1.text.toList.length < s.1.text.toList.length := by
  obtain ⟨_, hmem, hpath⟩ := PathTable.exists_row_of_mem (hown r hr)
  obtain ⟨s, hs, rfl⟩ := List.mem_map.1 hmem
  replace hpath : s.1.cutBack = r.1.normalize := hpath
  cases hsblank : s.1.endsBlank with
  | true =>
    rw [Path.normalize_of_endsBlank hblank] at hpath
    exact ⟨s, hs, hsblank, hpath ▸ Path.length_cutBack_lt hsblank⟩
  | false =>
    -- the row would have another spelling of the same path
    have hcomponents : s.1.components = r.1.components := by
      rw [← Path.components_normalize (habs s hs), ← Path.components_normalize (habs r hr),
        ← Path.cutBack_of_visible hsblank, hpath]
    have hne : s ≠ r := by
      rintro rfl
      exact Bool.noConfusion (hsblank.symm.trans hblank)
    have hsymm : Std.Symm fun r s : Path × UInt64 => r.1.components ≠ s.1.components :=
      ⟨fun _ _ => Ne.symm⟩
    exact absurd hcomponents (hdiff.forall hs hr hne)

/-- Any listing of different absolute paths is read.  About each path, the table has what the
rows make of it when each of them is cut back.  The entries are the rows, each under its
own path without trailing separators, if and only if no path ends in white space. -/
theorem own_entries_iff (hne : rows ≠ []) (hending : ending = [] ∨ ending = ['\n'])
    (habs : ∀ r ∈ rows, r.1.isAbsolute) (hline : ∀ r ∈ rows, '\n' ∉ r.1.text.toList)
    (hdiff : rows.Pairwise fun r s => r.1.components ≠ s.1.components) :
    ∃ table, ofReport (listing rows ending) = .ok table ∧
      (∀ cs, about cs table.entries =
        (entryOf? cs (rows.map fun r => (r.1.cutBack, r.2))).toList) ∧
      (table.entries.Perm (rows.map fun r => (r.1.normalize, r.2)) ↔
        ∀ r ∈ rows, r.1.endsBlank = false) := by
  refine ⟨_, ofReport_listing hne hline hending, fun cs => PathTable.about_ofRows cs _, ?_⟩
  constructor
  · intro hperm r hr
    by_contra hblank
    have hown : ∀ r ∈ rows,
        (r.1.normalize, r.2) ∈ (PathTable.ofRows (rows.map cutRow)).entries := by
      intro r hr
      exact hperm.mem_iff.2 (List.mem_map_of_mem hr)
    -- of the paths that end in white space, take the longest
    let blanks := rows.filter (·.1.endsBlank)
    cases hlongest : blanks.argmax fun r => r.1.text.toList.length with
    | none =>
      have hmem : r ∈ blanks := List.mem_filter.2 ⟨hr, eq_true_of_ne_false hblank⟩
      rw [List.argmax_eq_none.1 hlongest] at hmem
      exact List.not_mem_nil hmem
    | some m =>
      obtain ⟨hm, hmblank⟩ := List.mem_filter.1 (List.argmax_mem hlongest)
      obtain ⟨s, hs, hsblank, hlonger⟩ := exists_longer habs hdiff hown hm hmblank
      have hle := List.le_of_mem_argmax (List.mem_filter.2 ⟨hs, hsblank⟩) hlongest
      exact Nat.lt_irrefl _ (Nat.lt_of_lt_of_le hlonger hle)
  · intro hvisible
    have hrows : rows.map cutRow = rows.map fun r => (r.1.normalize, r.2) := by
      apply List.map_congr_left
      intro r hr
      rw [cutRow, Path.cutBack_of_visible (hvisible r hr)]
    rw [hrows]
    apply PathTable.ofRows_perm
    apply List.pairwise_map.2
    apply hdiff.imp_of_mem
    intro r s hr hs hrs
    rw [Path.components_normalize (habs r hr), Path.components_normalize (habs s hs)]
    exact hrs

/-- Paths with tabs and white space inside, listed without and with trailing separators:
each has its own entry. -/
theorem own_entries_of_inner_blanks : ∃ table,
    ofReport "5\t/a\tb // c\n0\t/\n7\t/a\r/ /\n" = .ok table ∧
    table.entries.Perm [(⟨"/a\tb // c"⟩, 5), (⟨"/"⟩, 0), (⟨"/a\r/ "⟩, 7)] := by
  let rows : List (Path × UInt64) := [(⟨"/a\tb // c"⟩, 5), (⟨"/"⟩, 0), (⟨"/a\r/ /"⟩, 7)]
  have hdiff : rows.Pairwise fun r s => r.1.components ≠ s.1.components := by decide +kernel
  obtain ⟨table, hread, -, hown⟩ := @own_entries_iff rows ['\n']
    (List.cons_ne_nil _ _) (.inr rfl) (by decide +kernel) (by decide +kernel) hdiff
  have hlisting : listing rows ['\n'] = "5\t/a\tb // c\n0\t/\n7\t/a\r/ /\n" := by
    decide +kernel
  have hnormal : rows.map (fun r => (r.1.normalize, r.2)) =
      [(⟨"/a\tb // c"⟩, 5), (⟨"/"⟩, 0), (⟨"/a\r/ "⟩, 7)] := by
    decide +kernel
  refine ⟨table, hlisting ▸ hread, ?_⟩
  rw [← hnormal]
  exact hown.2 (by decide +kernel)

/-- Two directories, one of them with a space at the end of its name, share an entry. -/
theorem trailing_blank_shared :
    let rows : List (Path × UInt64) := [(⟨"/data/a "⟩, 5), (⟨"/data/a"⟩, 7)]
    (∀ r ∈ rows, r.1.isAbsolute ∧ '\n' ∉ r.1.text.toList) ∧
    (rows.Pairwise fun r s => r.1.components ≠ s.1.components) ∧
    listing rows ['\n'] = "5\t/data/a \n7\t/data/a\n" ∧
    (ofReport (listing rows ['\n'])).map (·.entries) = .ok [(⟨"/data/a"⟩, 7)] := by
  decide +kernel

end Usage

end DiskWatch
