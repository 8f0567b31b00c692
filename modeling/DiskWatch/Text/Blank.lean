/-
DiskWatch/Text/Blank.lean

White space and the ways of cutting a text.  A tool's report is read through
three cuts: into pieces at a separator (`pieces`), into lines (`lines`), and
into words (`words`).  All of them keep the characters in order and are plain
recursions over the list of characters.

Main results: cutting loses nothing (`pieces_length`, `join_pieces`), a word is
never empty and holds no white space (`mem_words`), and what was put together
from lines is cut into these lines again (`visibleLines_intercalate`).  The
first line of a text, and the words before and behind white space, can be cut
off one after another (`visibleLines_append`, `words_append_append`).
-/

namespace DiskWatch.Text

/-! ### White space -/

/-- White space, by the Unicode property of that name. -/
def isBlank (c : Char) : Bool :=
  let n := c.toNat
  (0x09 ≤ n && n ≤ 0x0D) || n == 0x20 || n == 0x85 || n == 0xA0 || n == 0x1680 ||
  (0x2000 ≤ n && n ≤ 0x200A) || n == 0x2028 || n == 0x2029 || n == 0x202F ||
  n == 0x205F || n == 0x3000

/-- A text without a visible character. -/
def allBlank (cs : List Char) : Bool := cs.all isBlank

/-- The text without its leading white space. -/
def trimStart (cs : List Char) : List Char := cs.dropWhile isBlank

/-- The text without the trailing characters of class `p`. -/
def dropEndWhile (p : Char → Bool) (cs : List Char) : List Char :=
  (cs.reverse.dropWhile p).reverse

/-- The text without its trailing white space. -/
def trimEnd (cs : List Char) : List Char := dropEndWhile isBlank cs

/-- The text without the white space at both ends. -/
def trim (cs : List Char) : List Char := trimEnd (trimStart cs)

theorem dropEndWhile_prefix (p : Char → Bool) (cs : List Char) : dropEndWhile p cs <+: cs := by
  rw [dropEndWhile, ← List.reverse_suffix, List.reverse_reverse]
  exact List.dropWhile_suffix p

/-- What is cut off the end of a text is of the class. -/
theorem exists_dropEndWhile_append (p : Char → Bool) (cs : List Char) :
    ∃ more, (∀ c ∈ more, p c = true) ∧ dropEndWhile p cs ++ more = cs := by
  refine ⟨(cs.reverse.takeWhile p).reverse, fun c hc => ?_, ?_⟩
  · exact List.all_eq_true.1 List.all_takeWhile c (List.mem_reverse.1 hc)
  · rw [dropEndWhile, ← List.reverse_append, List.takeWhile_append_dropWhile, List.reverse_reverse]

/-- Nothing is cut off a text whose last character is not of the class. -/
theorem dropEndWhile_of_getLast? {p : Char → Bool} {cs : List Char}
    (h : ∀ c, cs.getLast? = some c → p c = false) : dropEndWhile p cs = cs := by
  cases hr : cs.reverse with
  | nil => rw [dropEndWhile, hr, List.dropWhile_nil, ← hr, List.reverse_reverse]
  | cons c ds =>
    have hc : p c = false := h c (by rw [List.getLast?_eq_head?_reverse, hr]; rfl)
    rw [dropEndWhile, hr, List.dropWhile_cons, hc, if_neg Bool.false_ne_true, ← hr,
      List.reverse_reverse]

theorem dropEndWhile_append {p : Char → Bool} (xs : List Char) {ys : List Char}
    (h : ∀ c ∈ ys, p c = true) : dropEndWhile p (xs ++ ys) = dropEndWhile p xs := by
  rw [dropEndWhile, dropEndWhile, List.reverse_append, List.dropWhile_append_of_pos]
  simpa using h

theorem trim_of_forall {cs : List Char} (h : ∀ c ∈ cs, isBlank c = false) : trim cs = cs := by
  have hstart : trimStart cs = cs := by
    cases cs with
    | nil => rfl
    | cons c cs =>
      rw [trimStart, List.dropWhile_cons, h c List.mem_cons_self, if_neg Bool.false_ne_true]
  rw [trim, hstart]
  apply dropEndWhile_of_getLast?
  intro c hc
  exact h c (List.mem_of_getLast? hc)

/-! ### Pieces -/

/-- The pieces between the characters of class `p`.  There is always one more
piece than there are separators. -/
def pieces (p : Char → Bool) : List Char → List (List Char)
  | [] => [[]]
  | c :: cs =>
    if p c then [] :: pieces p cs
    else match pieces p cs with
      | [] => [[c]]
      | w :: ws => (c :: w) :: ws

theorem pieces_ne_nil (p : Char → Bool) (cs : List Char) : pieces p cs ≠ [] := by
  cases cs with
  | nil => simp [pieces]
  | cons c cs =>
    simp only [pieces]
    split
    · simp
    · split <;> simp

/-- Cutting at a separator adds one piece. -/
theorem pieces_length (p : Char → Bool) (cs : List Char) :
    (pieces p cs).length = cs.countP p + 1 := by
  induction cs with
  | nil => rfl
  | cons c cs ih =>
    by_cases h : p c
    · simp [pieces, h, ih]
    · simp only [pieces, h, Bool.false_eq_true, if_false]
      split
      · next he => exact absurd he (pieces_ne_nil p cs)
      · next w ws he => simp [h, ← ih, he]

/-- Putting one separator back between the pieces restores the text. -/
theorem join_pieces (s : Char) (cs : List Char) :
    [s].intercalate (pieces (· == s) cs) = cs := by
  induction cs with
  | nil => simp [pieces, List.intercalate]
  | cons c cs ih =>
    obtain ⟨w, ws, he⟩ := List.exists_cons_of_ne_nil (pieces_ne_nil (· == s) cs)
    rw [he] at ih
    by_cases h : c = s
    · subst h
      simp only [pieces, beq_self_eq_true, if_true, he]
      simpa [List.intercalate, List.intersperse] using ih
    · have hb : (c == s) = false := by simpa using h
      simp only [pieces, hb, Bool.false_eq_true, if_false, he]
      rw [← ih]
      cases ws <;> simp [List.intercalate, List.intersperse]

/-- No piece holds a separator. -/
theorem mem_pieces {p : Char → Bool} {cs w : List Char} (hw : w ∈ pieces p cs) :
    ∀ c ∈ w, p c = false := by
  induction cs generalizing w with
  | nil => simp [pieces] at hw; simp [hw]
  | cons d ds ih =>
    simp only [pieces] at hw
    split at hw
    · rcases List.mem_cons.1 hw with rfl | hw
      · simp
      · exact ih hw
    · next hd =>
      split at hw
      · simp only [List.mem_singleton] at hw; simp [hw, hd]
      · next v vs he =>
        rcases List.mem_cons.1 hw with rfl | hw
        · intro c hc
          rcases List.mem_cons.1 hc with rfl | hc
          · simpa using hd
          · exact ih (he ▸ List.mem_cons_self) c hc
        · exact ih (he ▸ List.mem_cons_of_mem _ hw)

/-- A text without separators is one piece. -/
theorem pieces_of_forall {p : Char → Bool} {cs : List Char} (h : ∀ c ∈ cs, p c = false) :
    pieces p cs = [cs] := by
  induction cs with
  | nil => rfl
  | cons c cs ih =>
    have hc : p c = false := h c List.mem_cons_self
    have hcs := ih fun d hd => h d (List.mem_cons_of_mem c hd)
    simp [pieces, hc, hcs]

/-- A separator cuts a text in two, and each side is cut on its own. -/
theorem pieces_append {p : Char → Bool} {s : Char} (hs : p s = true) (xs ys : List Char) :
    pieces p (xs ++ s :: ys) = pieces p xs ++ pieces p ys := by
  induction xs with
  | nil => simp [pieces, hs]
  | cons x xs ih =>
    by_cases hx : p x = true
    · simp [pieces, hx, ih]
    · obtain ⟨w, ws, hw⟩ := List.exists_cons_of_ne_nil (pieces_ne_nil p xs)
      simp [pieces, hx, ih, hw]

/-- Each separator at the end of a text is one more piece, with nothing in it. -/
theorem pieces_append_separators {p : Char → Bool} (xs : List Char) {seps : List Char}
    (h : ∀ c ∈ seps, p c = true) : pieces p (xs ++ seps) = pieces p xs ++ seps.map fun _ => [] := by
  induction seps generalizing xs with
  | nil => simp
  | cons s seps ih =>
    obtain ⟨hs, hseps⟩ := List.forall_mem_cons.1 h
    rw [pieces_append hs, ← List.nil_append seps, ih [] hseps]
    simp [pieces]

theorem pieces_of_notMem {s : Char} {cs : List Char} (h : s ∉ cs) : pieces (· == s) cs = [cs] := by
  apply pieces_of_forall
  intro c hc
  rw [beq_eq_false_iff_ne]
  rintro rfl
  exact h hc

/-- Pieces without separators are found again in the text that they make up. -/
theorem pieces_intercalate {s : Char} {ls : List (List Char)} (h : ∀ l ∈ ls, s ∉ l)
    (hne : ls ≠ []) : pieces (· == s) ([s].intercalate ls) = ls := by
  induction ls with
  | nil => exact absurd rfl hne
  | cons l ls ih =>
    have hl := pieces_of_notMem (h l List.mem_cons_self)
    cases ls with
    | nil => simpa [List.intercalate, List.intersperse] using hl
    | cons m ls =>
      have hrest := ih (fun k hk => h k (List.mem_cons_of_mem l hk)) (List.cons_ne_nil m ls)
      have hcat : [s].intercalate (l :: m :: ls) = l ++ s :: [s].intercalate (m :: ls) := by
        simp [List.intercalate, List.intersperse]
      rw [hcat, pieces_append (p := (· == s)) (beq_self_eq_true s), hl, hrest]
      rfl

/-! ### Words and lines -/

/-- The words: the maximal runs of characters that are not white space. -/
def words (cs : List Char) : List (List Char) :=
  (pieces isBlank cs).filter (!·.isEmpty)

/-- A word is not empty and holds no white space. -/
theorem mem_words {cs w : List Char} (hw : w ∈ words cs) :
    w ≠ [] ∧ ∀ c ∈ w, isBlank c = false := by
  have h := List.mem_filter.1 hw
  exact ⟨by simpa using h.2, mem_pieces h.1⟩

section Words

variable {w space : List Char}

/-- White space ends a word. -/
theorem words_append {s : Char} (hs : isBlank s = true) (xs ys : List Char) :
    words (xs ++ s :: ys) = words xs ++ words ys := by
  rw [words, pieces_append hs, List.filter_append]
  rfl

/-- A text without white space is one word. -/
theorem words_of_forall (h : ∀ c ∈ w, isBlank c = false) (hne : w ≠ []) : words w = [w] := by
  rw [words, pieces_of_forall h]
  simp [hne]

/-- White space before a text is no word of it. -/
theorem words_blank_append (h : ∀ c ∈ space, isBlank c = true) (ys : List Char) :
    words (space ++ ys) = words ys := by
  induction space with
  | nil => rfl
  | cons c cs ih =>
    obtain ⟨hc, hcs⟩ := List.forall_mem_cons.1 h
    have hfirst := words_append hc [] (cs ++ ys)
    rw [List.nil_append] at hfirst
    rw [List.cons_append, hfirst, ih hcs]
    rfl

/-- Any amount of white space between two texts keeps their words apart. -/
theorem words_append_append (h : ∀ c ∈ space, isBlank c = true) (hne : space ≠ [])
    (xs ys : List Char) : words (xs ++ (space ++ ys)) = words xs ++ words ys := by
  obtain ⟨c, cs, rfl⟩ := List.exists_cons_of_ne_nil hne
  obtain ⟨hc, hcs⟩ := List.forall_mem_cons.1 h
  rw [List.cons_append, words_append hc, words_blank_append hcs]

/-- A text with a word in it is seen. -/
theorem allBlank_of_words {cs : List Char} (h : words cs ≠ []) : allBlank cs = false := by
  cases hb : allBlank cs with
  | false => rfl
  | true =>
    have hnone := words_blank_append (List.all_eq_true.1 hb) []
    rw [List.append_nil] at hnone
    exact absurd hnone h

end Words

/-- A line without the carriage return that stands before its line feed. -/
def dropReturn (line : List Char) : List Char :=
  if line.getLast? = some '\r' then line.dropLast else line

/-- The lines among the pieces between line feeds: every piece but the last was
ended by a line feed, and an empty last piece is no line. -/
def linesOf : List (List Char) → List (List Char)
  | [] => []
  | [final] => if final.isEmpty then [] else [final]
  | line :: rest => dropReturn line :: linesOf rest

/-- The lines of a text, without their ends. -/
def lines (cs : List Char) : List (List Char) := linesOf (pieces (· == '\n') cs)

/-- The lines that hold something visible. -/
def visibleLines (cs : List Char) : List (List Char) :=
  (lines cs).filter (!allBlank ·)

theorem dropReturn_of_ne {line : List Char} (h : line.getLast? ≠ some '\r') :
    dropReturn line = line := if_neg h

theorem allBlank_dropReturn {line : List Char} (h : allBlank line = true) :
    allBlank (dropReturn line) = true := by
  rw [dropReturn]
  split
  · exact List.all_eq_true.2 fun c hc =>
      List.all_eq_true.1 h c (List.dropLast_subset line hc)
  · exact h

/-- A carriage return is no part of a word. -/
theorem words_dropReturn (line : List Char) : words (dropReturn line) = words line := by
  rw [dropReturn]
  split
  · next h =>
    obtain ⟨init, rfl⟩ := List.getLast?_eq_some_iff.1 h
    rw [List.dropLast_concat, words_append (by decide)]
    exact (List.append_nil _).symm
  · rfl

/-- The lines of a text are its first line and the lines of the rest. -/
theorem lines_append {line : List Char} (h : '\n' ∉ line) (rest : List Char) :
    lines (line ++ '\n' :: rest) = dropReturn line :: lines rest := by
  obtain ⟨w, ws, hw⟩ := List.exists_cons_of_ne_nil (pieces_ne_nil (· == '\n') rest)
  rw [lines, pieces_append (p := (· == '\n')) (beq_self_eq_true '\n'), pieces_of_notMem h, lines,
    hw]
  rfl

/-- The last line of a text need not be ended. -/
theorem lines_of_notMem {line : List Char} (h : '\n' ∉ line) (hne : line ≠ []) :
    lines line = [line] := by
  rw [lines, pieces_of_notMem h, linesOf, List.isEmpty_eq_false_iff.2 hne,
    if_neg Bool.false_ne_true]

/-- Where no visible line ends in a carriage return, ending the lines takes
nothing visible away. -/
theorem filter_linesOf {ls : List (List Char)}
    (h : ∀ l ∈ ls, allBlank l = true ∨ l.getLast? ≠ some '\r') :
    (linesOf ls).filter (!allBlank ·) = ls.filter (!allBlank ·) := by
  induction ls using linesOf.induct with
  | case1 => rfl
  | case2 final he =>
    obtain rfl := List.isEmpty_iff.1 he
    rfl
  | case3 final he => simp [linesOf, he]
  | case4 line rest hrest ih =>
    have hline : (!allBlank (dropReturn line)) = !allBlank line ∧
        (allBlank line = false → dropReturn line = line) := by
      rcases h line List.mem_cons_self with hb | hr
      · exact ⟨by rw [hb, allBlank_dropReturn hb], fun hv => by simp [hb] at hv⟩
      · exact ⟨by rw [dropReturn_of_ne hr], fun _ => dropReturn_of_ne hr⟩
    have htail := ih fun l hl => h l (List.mem_cons_of_mem line hl)
    rw [linesOf, List.filter_cons, List.filter_cons, hline.1, htail]
    · split
      · next hv => rw [hline.2 (by simpa using hv)]
      · rfl
    · exact hrest

/-- A line in front of others. -/
theorem visibleLines_append {line : List Char} (h : '\n' ∉ line) (rest : List Char) :
    visibleLines (line ++ '\n' :: rest) =
      [dropReturn line].filter (!allBlank ·) ++ visibleLines rest := by
  rw [visibleLines, lines_append h, ← List.singleton_append, List.filter_append]
  rfl

/-- The last line is seen with all its words, ended or not. -/
theorem visibleLines_last {line ending : List Char} (h : '\n' ∉ line) (hwords : words line ≠ [])
    (hending : ending = [] ∨ ending = ['\n']) :
    ∃ l, visibleLines (line ++ ending) = [l] ∧ words l = words line := by
  rcases hending with rfl | rfl
  · refine ⟨line, ?_, rfl⟩
    have hne : line ≠ [] := by
      rintro rfl
      exact hwords rfl
    rw [List.append_nil, visibleLines, lines_of_notMem h hne]
    simp [allBlank_of_words hwords]
  · have hsame := words_dropReturn line
    refine ⟨dropReturn line, ?_, hsame⟩
    rw [visibleLines_append h]
    simp [allBlank_of_words (hsame ▸ hwords), visibleLines, lines, pieces, linesOf]

/-- The visible ones among some lines are found again in the text of the lines. -/
theorem visibleLines_intercalate {ls : List (List Char)} (h : ∀ l ∈ ls, '\n' ∉ l)
    (hr : ∀ l ∈ ls, allBlank l = true ∨ l.getLast? ≠ some '\r') :
    visibleLines (['\n'].intercalate ls) = ls.filter (!allBlank ·) := by
  cases ls with
  | nil => rfl
  | cons l ls =>
    rw [visibleLines, lines, pieces_intercalate h (List.cons_ne_nil l ls)]
    exact filter_linesOf hr

/-! ### The first cut -/

/-- The text before and after the first character of class `p`. -/
def cutAt (p : Char → Bool) (cs : List Char) : Option (List Char × List Char) :=
  match cs.dropWhile (!p ·) with
  | [] => none
  | _ :: rest => some (cs.takeWhile (!p ·), rest)

theorem cutAt_append {p : Char → Bool} {xs : List Char} {s : Char} (hx : ∀ c ∈ xs, p c = false)
    (hs : p s = true) (ys : List Char) : cutAt p (xs ++ s :: ys) = some (xs, ys) := by
  have hdrop : (xs ++ s :: ys).dropWhile (!p ·) = s :: ys := by
    rw [List.dropWhile_append_of_pos (by simpa using hx)]
    simp [hs]
  have htake : (xs ++ s :: ys).takeWhile (!p ·) = xs := by
    rw [List.takeWhile_append_of_pos (by simpa using hx)]
    simp [hs]
  rw [cutAt, hdrop]
  exact congrArg (fun w => some (w, ys)) htake

/-- Whether `needle` occurs in the text. -/
def contains (needle : List Char) : List Char → Bool
  | [] => needle.isEmpty
  | c :: cs => needle.isPrefixOf (c :: cs) || contains needle cs

end DiskWatch.Text
