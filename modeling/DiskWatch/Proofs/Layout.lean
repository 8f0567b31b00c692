/-
DiskWatch/Proofs/Layout.lean

The words of a text, line by line.  They are what is left of a text when its layout is
taken away: the words between two line feeds make a list, and lists without words are
left out (`wordLines`).  The visible lines of a text have these words, so blank lines and
carriage returns are part of the layout (`map_words_visibleLines`).

White space does not matter beyond where words and lines end.  Between two parts of a
text, white space may stand for other white space if both break the line or neither does
(`wordLines_respace`), and at both ends it may be left out (`wordLines_outer`).
-/
import DiskWatch.Text.Blank

namespace DiskWatch.Text

variable {cs xs ys gap gap' line : List Char}

/-! ### Lines with words -/

/-- The words of each line that has any. -/
def wordLines (cs : List Char) : List (List (List Char)) :=
  ((pieces (· == '\n') cs).map words).filter (!·.isEmpty)

theorem words_cons_blank {c : Char} (hc : isBlank c = true) (cs : List Char) :
    words (c :: cs) = words cs :=
  words_append hc [] cs

theorem words_cons_ne_nil {c : Char} (hc : isBlank c = false) (cs : List Char) :
    words (c :: cs) ≠ [] := by
  obtain ⟨w, ws, hw⟩ := List.exists_cons_of_ne_nil (pieces_ne_nil isBlank cs)
  simp [words, pieces, hc, hw]

/-- A text is blank if it has no words. -/
theorem isEmpty_words (cs : List Char) : (words cs).isEmpty = allBlank cs := by
  induction cs with
  | nil => rfl
  | cons c cs ih =>
    cases hc : isBlank c with
    | true =>
      rw [words_cons_blank hc, ih]
      simp [allBlank, hc]
    | false =>
      rw [List.isEmpty_eq_false_iff.2 (words_cons_ne_nil hc cs)]
      simp [allBlank, hc]

/-- Ending the lines takes no word away. -/
theorem map_words_linesOf (ls : List (List Char)) :
    ((linesOf ls).map words).filter (!·.isEmpty) = (ls.map words).filter (!·.isEmpty) := by
  induction ls using linesOf.induct with
  | case1 => rfl
  | case2 final he =>
    obtain rfl := List.isEmpty_iff.1 he
    rfl
  | case3 final he => rw [linesOf, if_neg he]
  | case4 line rest hrest ih =>
    rw [linesOf, List.map_cons, List.map_cons, words_dropReturn, List.filter_cons,
      List.filter_cons, ih]
    exact hrest

/-- The words of the visible lines. -/
theorem map_words_visibleLines (cs : List Char) :
    (visibleLines cs).map words = wordLines cs := by
  rw [wordLines, ← map_words_linesOf, List.filter_map, visibleLines, lines]
  congr 2
  funext line
  exact congrArg (!·) (isEmpty_words line).symm

/-! ### White space -/

theorem wordLines_append (xs ys : List Char) :
    wordLines (xs ++ '\n' :: ys) = wordLines xs ++ wordLines ys := by
  rw [wordLines, pieces_append (p := (· == '\n')) (beq_self_eq_true '\n'), List.map_append,
    List.filter_append]
  rfl

theorem wordLines_of_line (h : '\n' ∉ line) :
    wordLines line = [words line].filter (!·.isEmpty) := by
  rw [wordLines, pieces_of_notMem h]
  rfl

/-- White space at the start of a text is no part of its words. -/
theorem wordLines_blank_append (h : ∀ c ∈ gap, isBlank c = true) (ys : List Char) :
    wordLines (gap ++ ys) = wordLines ys := by
  induction gap with
  | nil => rfl
  | cons c gap ih =>
    obtain ⟨hc, hgap⟩ := List.forall_mem_cons.1 h
    rw [← ih hgap, List.cons_append]
    by_cases hline : c = '\n'
    · subst hline
      exact wordLines_append [] (gap ++ ys)
    · obtain ⟨w, ws, hw⟩ := List.exists_cons_of_ne_nil (pieces_ne_nil (· == '\n') (gap ++ ys))
      have hpieces : pieces (· == '\n') (c :: (gap ++ ys)) = (c :: w) :: ws := by
        simp [pieces, hline, hw]
      rw [wordLines, wordLines, hpieces, hw, List.map_cons, List.map_cons, words_cons_blank hc]

/-- The last line of a text, and what is before it. -/
theorem exists_lastLine (xs : List Char) :
    ∃ line, '\n' ∉ line ∧ (xs = line ∨ ∃ before, xs = before ++ '\n' :: line) := by
  induction xs with
  | nil => exact ⟨[], List.not_mem_nil, .inl rfl⟩
  | cons c xs ih =>
    obtain ⟨line, hline, rfl | ⟨before, rfl⟩⟩ := ih
    · by_cases hc : c = '\n'
      · exact ⟨xs, hline, .inr ⟨[], by rw [hc]; rfl⟩⟩
      · exact ⟨c :: xs, by simp [Ne.symm hc, hline], .inl rfl⟩
    · exact ⟨line, hline, .inr ⟨c :: before, rfl⟩⟩

/-- The first line of a text, and what is behind it. -/
theorem exists_firstLine (ys : List Char) :
    ∃ line, '\n' ∉ line ∧ (ys = line ∨ ∃ behind, ys = line ++ '\n' :: behind) := by
  by_cases h : '\n' ∈ ys
  · obtain ⟨line, behind, rfl, hline⟩ := List.eq_append_cons_of_mem h
    exact ⟨line, hline, .inr ⟨behind, rfl⟩⟩
  · exact ⟨ys, h, .inl rfl⟩

/-- Only the last line of a text goes on in what is put behind it. -/
theorem exists_wordLines_append (xs : List Char) : ∃ front line, '\n' ∉ line ∧
    ∀ zs, wordLines (xs ++ zs) = front ++ wordLines (line ++ zs) := by
  obtain ⟨line, hline, rfl | ⟨before, rfl⟩⟩ := exists_lastLine xs
  · exact ⟨[], xs, hline, fun _ => rfl⟩
  · refine ⟨wordLines before, line, hline, fun zs => ?_⟩
    rw [List.append_assoc, List.cons_append, wordLines_append]

/-- Only the first line of a text goes on from what is put before it. -/
theorem exists_append_wordLines (ys : List Char) : ∃ line back, '\n' ∉ line ∧
    ∀ zs, wordLines (zs ++ ys) = wordLines (zs ++ line) ++ back := by
  obtain ⟨line, hline, rfl | ⟨behind, rfl⟩⟩ := exists_firstLine ys
  · exact ⟨ys, [], hline, fun _ => (List.append_nil _).symm⟩
  · refine ⟨line, wordLines behind, hline, fun zs => ?_⟩
    rw [← List.append_assoc, wordLines_append]

theorem words_append_blank (h : ∀ c ∈ gap, isBlank c = true) (xs : List Char) :
    words (xs ++ gap) = words xs := by
  by_cases hne : gap = []
  · rw [hne, List.append_nil]
  · have hcut := words_append_append h hne xs []
    rw [List.append_nil] at hcut
    exact hcut.trans (List.append_nil _)

/-- White space at the end of a text is no part of its words. -/
theorem wordLines_append_blank (h : ∀ c ∈ gap, isBlank c = true) (xs : List Char) :
    wordLines (xs ++ gap) = wordLines xs := by
  obtain ⟨front, line, hline, hxs⟩ := exists_wordLines_append xs
  obtain ⟨first, hfirst, hgap⟩ := exists_firstLine gap
  have hlast : (∀ c ∈ first, isBlank c = true) → wordLines (line ++ first) = wordLines line := by
    intro hblank
    have hone : '\n' ∉ line ++ first := by simp [hline, hfirst]
    rw [wordLines_of_line hone, words_append_blank hblank, wordLines_of_line hline]
  have hkept : wordLines (line ++ gap) = wordLines line := by
    rcases hgap with rfl | ⟨behind, rfl⟩
    · exact hlast h
    · obtain ⟨hblank, hrest⟩ := List.forall_mem_append.1 h
      have hbehind := wordLines_blank_append (List.forall_mem_cons.1 hrest).2 []
      rw [List.append_nil] at hbehind
      rw [← List.append_assoc, wordLines_append, hlast hblank, hbehind]
      exact List.append_nil _
  rw [hxs gap, hkept, ← List.append_nil xs, hxs [], List.append_nil]

/-- White space that breaks the line keeps the lines apart. -/
theorem wordLines_break (h : ∀ c ∈ gap, isBlank c = true) (hline : '\n' ∈ gap)
    (xs ys : List Char) : wordLines (xs ++ (gap ++ ys)) = wordLines xs ++ wordLines ys := by
  obtain ⟨before, behind, rfl⟩ := List.append_of_mem hline
  obtain ⟨hbefore, hrest⟩ := List.forall_mem_append.1 h
  rw [List.append_assoc, ← List.append_assoc, List.cons_append, wordLines_append,
    wordLines_append_blank hbefore, wordLines_blank_append (List.forall_mem_cons.1 hrest).2]

/-- White space within a line keeps its words apart. -/
theorem wordLines_gap (xs ys : List Char) : ∃ front words back, ∀ gap : List Char,
    (∀ c ∈ gap, isBlank c = true) → gap ≠ [] → '\n' ∉ gap →
      wordLines (xs ++ (gap ++ ys)) = front ++ (words ++ back) := by
  obtain ⟨front, last, hlast, hxs⟩ := exists_wordLines_append xs
  obtain ⟨first, back, hfirst, hys⟩ := exists_append_wordLines ys
  refine ⟨front, [words last ++ words first].filter (!·.isEmpty), back, ?_⟩
  intro gap hblank hne hline
  have hone : '\n' ∉ last ++ (gap ++ first) := by simp [hlast, hline, hfirst]
  rw [hxs, ← List.append_assoc last, hys, List.append_assoc last, wordLines_of_line hone,
    words_append_append hblank hne]

/-- White space that may stand for each other between two parts of a text: both of them
break the line, or neither does. -/
structure Interchangeable (gap gap' : List Char) : Prop where
  blank : ∀ c ∈ gap, isBlank c = true
  blank' : ∀ c ∈ gap', isBlank c = true
  ne_nil : gap ≠ []
  ne_nil' : gap' ≠ []
  line : '\n' ∈ gap ↔ '\n' ∈ gap'

theorem wordLines_respace (h : Interchangeable gap gap') (xs ys : List Char) :
    wordLines (xs ++ (gap ++ ys)) = wordLines (xs ++ (gap' ++ ys)) := by
  by_cases hbreak : '\n' ∈ gap
  · rw [wordLines_break h.blank hbreak, wordLines_break h.blank' (h.line.1 hbreak)]
  · obtain ⟨front, middle, back, hsame⟩ := wordLines_gap xs ys
    rw [hsame gap h.blank h.ne_nil hbreak, hsame gap' h.blank' h.ne_nil' (mt h.line.2 hbreak)]

/-- White space at the ends of a text may be left out. -/
theorem wordLines_outer (h : ∀ c ∈ gap, isBlank c = true) (h' : ∀ c ∈ gap', isBlank c = true)
    (xs : List Char) : wordLines (gap ++ (xs ++ gap')) = wordLines xs := by
  rw [wordLines_blank_append h, wordLines_append_blank h']

/-- The text with a carriage return before each line feed. -/
def withReturns : List Char → List Char
  | [] => []
  | '\n' :: cs => '\r' :: '\n' :: withReturns cs
  | c :: cs => c :: withReturns cs

theorem interchangeable_return : Interchangeable ['\r', '\n'] ['\n'] where
  blank := by simp [isBlank]
  blank' := by simp [isBlank]
  ne_nil := List.cons_ne_nil _ _
  ne_nil' := List.cons_ne_nil _ _
  line := by simp

theorem wordLines_withReturns (xs cs : List Char) :
    wordLines (xs ++ withReturns cs) = wordLines (xs ++ cs) := by
  induction cs using withReturns.induct generalizing xs with
  | case1 => rfl
  | case2 cs ih =>
    have hreturn := wordLines_respace interchangeable_return xs (withReturns cs)
    have hrest := ih (xs ++ ['\n'])
    rw [List.append_assoc, List.append_assoc] at hrest
    exact hreturn.trans hrest
  | case3 c cs hc ih =>
    have hrest := ih (xs ++ [c])
    rw [List.append_assoc, List.append_assoc] at hrest
    rw [withReturns]
    · exact hrest
    · exact hc

end DiskWatch.Text
