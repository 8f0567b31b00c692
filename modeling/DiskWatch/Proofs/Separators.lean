/-
DiskWatch/Proofs/Separators.lean

The text of a path without its trailing separators.  Every text is such a normal one with
some separators behind it (`exists_normalizeChars_append`), and a normal one is one that
ends in no separator, the root apart (`normalizeChars_eq_iff`).

Separators behind a text that is not empty add no component (`componentsOf_append`) and
leave its first character alone, so the normal text of a path, absolute or not, stands for
the same path, and levels are the same for the normal texts.  Behind a text that is empty
they make it absolute; but an empty text has no separators to lose.

Main result: `normalize` picks one text for all spellings that differ in their trailing
separators (`normal_form`).  Paths are compared by their texts here: others may still have
the same components, as two with a different number of separators inside do.
-/
import DiskWatch.Proofs.Levels

namespace DiskWatch.Path

variable {cs : List Char} {p q : Path}

/-! ### Normal texts -/

/-- Only the root ends in a separator. -/
def Normal (cs : List Char) : Prop := cs.getLast? = some '/' → cs = ['/']

theorem getLast?_dropEndWhile (cs : List Char) :
    (Text.dropEndWhile (· == '/') cs).getLast? ≠ some '/' := by
  intro h
  rw [Text.dropEndWhile, List.getLast?_reverse] at h
  have hsep := List.head?_dropWhile_not (· == '/') cs.reverse
  rw [h] at hsep
  exact absurd hsep (by decide)

theorem normal_normalizeChars (cs : List Char) : Normal (normalizeChars cs) := by
  rw [normalizeChars]
  split
  · exact fun _ => rfl
  · exact fun h => absurd h (getLast?_dropEndWhile cs)

/-- The texts that lose nothing are the normal ones. -/
theorem normalizeChars_eq_iff : normalizeChars cs = cs ↔ Normal cs := by
  constructor
  · intro h
    exact h ▸ normal_normalizeChars cs
  · intro h
    by_cases hlast : cs.getLast? = some '/'
    · rw [h hlast]
      rfl
    · have hdrop : Text.dropEndWhile (· == '/') cs = cs := by
        apply Text.dropEndWhile_of_getLast?
        intro c hc
        rw [beq_eq_false_iff_ne]
        rintro rfl
        exact hlast hc
      rw [normalizeChars, hdrop, if_neg]
      intro hroot
      rw [Bool.and_eq_true, List.isEmpty_iff] at hroot
      rw [hroot.1] at hroot
      exact absurd hroot.2 (by decide)

/-- A text is its normal one with some separators behind it. -/
theorem exists_normalizeChars_append (cs : List Char) :
    ∃ count, cs = normalizeChars cs ++ List.replicate count '/' := by
  obtain ⟨seps, hseps, htext⟩ := Text.exists_dropEndWhile_append (· == '/') cs
  have hrep : seps = List.replicate seps.length '/' :=
    List.eq_replicate_of_mem fun c hc => beq_iff_eq.1 (hseps c hc)
  rw [normalizeChars]
  split
  · next hroot =>
    -- nothing but separators, of which the first one stays
    rw [Bool.and_eq_true, List.isEmpty_iff, beq_iff_eq] at hroot
    rw [hroot.1, List.nil_append] at htext
    cases hlen : seps.length with
    | zero =>
      rw [List.length_eq_zero_iff.1 hlen] at htext
      rw [← htext] at hroot
      cases hroot.2
    | succ count =>
      rw [hlen, List.replicate_succ] at hrep
      exact ⟨count, htext.symm.trans hrep⟩
  · exact ⟨_, hrep ▸ htext.symm⟩

theorem normalizeChars_ne_nil (hne : cs ≠ []) : normalizeChars cs ≠ [] := by
  intro hnil
  obtain ⟨count, hcount⟩ := exists_normalizeChars_append cs
  -- a text of separators only keeps one
  cases count with
  | zero => exact hne (hcount.trans (by rw [hnil]; rfl))
  | succ count =>
    rw [hnil, List.nil_append, List.replicate_succ] at hcount
    have habs : cs.head? = some '/' := by rw [hcount]; rfl
    rw [normalizeChars, habs] at hnil
    split at hnil
    · cases hnil
    · next hroot =>
      rw [hnil] at hroot
      exact hroot rfl

/-! ### The same path -/

/-- The components of the parts of a relative path: a dot counts if it comes first. -/
def relative : List (List Char) → List Component
  | ['.'] :: parts => .here :: parts.filterMap part?
  | parts => parts.filterMap part?

theorem componentsOf_relative {c : Char} (hc : c ≠ '/') (rest : List Char) :
    componentsOf (c :: rest) = relative (Text.pieces (· == '/') (c :: rest)) := by
  rw [componentsOf]
  · rfl
  · intro tail htail
    exact hc (List.cons.inj htail).1

/-- Parts that mean nothing may stand at the end. -/
theorem relative_append {parts more : List (List Char)} (hne : parts ≠ [])
    (hmore : more.filterMap part? = []) : relative (parts ++ more) = relative parts := by
  obtain ⟨w, ws, rfl⟩ := List.exists_cons_of_ne_nil hne
  have hws : (ws ++ more).filterMap part? = ws.filterMap part? := by
    rw [List.filterMap_append, hmore, List.append_nil]
  by_cases hw : w = ['.']
  · subst hw
    exact congrArg (Component.here :: ·) hws
  · have hplain : ∀ tail, relative (w :: tail) = (w :: tail).filterMap part? := by
      intro tail
      rw [relative]
      intro parts hparts
      exact hw (List.cons.inj hparts).1
    rw [List.cons_append, hplain, hplain, List.filterMap_cons, List.filterMap_cons, hws]

/-- Separators behind a text that is not empty add no component. -/
theorem componentsOf_append (hne : cs ≠ []) (count : Nat) :
    componentsOf (cs ++ List.replicate count '/') = componentsOf cs := by
  have hseps : ∀ c ∈ List.replicate count '/', (c == '/') = true := by
    intro c hc
    rw [List.eq_of_mem_replicate hc]
    rfl
  obtain ⟨c, rest, rfl⟩ := List.exists_cons_of_ne_nil hne
  by_cases hc : c = '/'
  · subst hc
    exact congrArg (Component.root :: ·) (filterMap_pieces_append rest hseps)
  · rw [List.cons_append, componentsOf_relative hc, componentsOf_relative hc, ← List.cons_append,
      Text.pieces_append_separators _ hseps]
    exact relative_append (Text.pieces_ne_nil _ _) (by simp [part?])

/-- The normal text of a path has the same components. -/
theorem componentsOf_normalizeChars (cs : List Char) :
    componentsOf (normalizeChars cs) = componentsOf cs := by
  by_cases hne : cs = []
  · subst hne
    rfl
  · obtain ⟨count, hcount⟩ := exists_normalizeChars_append cs
    conv_rhs => rw [hcount]
    exact (componentsOf_append (normalizeChars_ne_nil hne) count).symm

/-- The normal text of a path begins alike. -/
theorem head?_normalizeChars (cs : List Char) : (normalizeChars cs).head? = cs.head? := by
  by_cases hne : cs = []
  · subst hne
    rfl
  · obtain ⟨count, hcount⟩ := exists_normalizeChars_append cs
    conv_rhs => rw [hcount]
    exact (List.head?_append_of_ne_nil _ (normalizeChars_ne_nil hne)).symm

theorem eq_iff_toList : p = q ↔ p.text.toList = q.text.toList := by
  rw [String.toList_inj]
  exact ⟨congrArg text, fun h => by cases p; cases q; cases h; rfl⟩

theorem toList_normalize (p : Path) : p.normalize.text.toList = normalizeChars p.text.toList :=
  String.toList_ofList

/-- The normal text of a path stands for the same path, absolute or not. -/
theorem components_normalize_eq (p : Path) : p.normalize.components = p.components := by
  rw [components, toList_normalize, componentsOf_normalizeChars, components]

theorem normalize_eq_iff :
    p.normalize = p ↔ (p.text.toList.getLast? = some '/' → p.text = "/") := by
  have hroot : p.text = "/" ↔ p.text.toList = ['/'] := String.toList_inj.symm
  rw [eq_iff_toList, toList_normalize, normalizeChars_eq_iff, hroot, Normal]

theorem text_eq_of_getLast? (hlast : p.normalize.text.toList.getLast? = some '/') :
    p.normalize.text = "/" := by
  rw [toList_normalize] at hlast
  rw [normalize, normal_normalizeChars _ hlast]

/-- Two texts have one normal text if and only if they differ in the number of trailing
separators only, unless one of them is empty. -/
theorem normalizeChars_eq_normalizeChars_iff {ds : List Char} (hc : cs ≠ []) (hd : ds ≠ []) :
    normalizeChars cs = normalizeChars ds ↔ ∃ stem m n,
      cs = stem ++ List.replicate m '/' ∧ ds = stem ++ List.replicate n '/' := by
  constructor
  · intro h
    obtain ⟨m, hm⟩ := exists_normalizeChars_append cs
    obtain ⟨n, hn⟩ := exists_normalizeChars_append ds
    exact ⟨normalizeChars cs, m, n, hm, h ▸ hn⟩
  · rintro ⟨stem, m, n, rfl, rfl⟩
    by_cases hstem : stem = []
    · subst hstem
      -- nothing but separators, and some of them
      have hroot : ∀ {k}, [] ++ List.replicate k '/' ≠ [] →
          normalizeChars ([] ++ List.replicate k '/') = ['/'] := by
        intro k hk
        cases k with
        | zero => exact absurd rfl hk
        | succ k => exact normalizeChars_append (List.cons_ne_nil '/' []) k
      rw [hroot hc, hroot hd]
    · rw [normalizeChars_append hstem, normalizeChars_append hstem]

theorem normalize_eq_normalize_iff (hp : p.isAbsolute = true) (hq : q.isAbsolute = true) :
    p.normalize = q.normalize ↔ ∃ stem m n,
      p.text.toList = stem ++ List.replicate m '/' ∧
      q.text.toList = stem ++ List.replicate n '/' := by
  have hne : ∀ {p : Path}, p.isAbsolute = true → p.text.toList ≠ [] := by
    intro p hp hnil
    rw [isAbsolute, hnil] at hp
    cases hp
  rw [eq_iff_toList, toList_normalize, toList_normalize,
    normalizeChars_eq_normalizeChars_iff (hne hp) (hne hq)]

/-! ### Levels -/

theorem level?_congr {b b' p p' : Path} (hb : b.components = b'.components)
    (hp : p.components = p'.components) : level? b p = level? b' p' := by
  rw [level?, level?, hb, hp]

/-- Levels add up along a chain of paths. -/
theorem level?_add {a b c : Path} (hshort : c.components.length < UInt32.size) {m n : Nat}
    (hab : level? a b = some m) (hbc : level? b c = some n) : level? a c = some (m + n) := by
  rw [Usage.level?_eq b hshort, Option.ite_none_right_eq_some] at hbc
  obtain ⟨hbc, hn⟩ := hbc
  have hle := hbc.length_le
  rw [Usage.level?_eq a (Nat.lt_of_le_of_lt hle hshort), Option.ite_none_right_eq_some] at hab
  obtain ⟨hab, hm⟩ := hab
  rw [Usage.level?_eq a hshort, if_pos (hab.trans hbc)]
  have hle' := hab.length_le
  rw [Option.some.injEq] at hm hn ⊢
  omega

/-! ### One text for all spellings -/

/-- For any texts of paths:

* the normal text of a normal text is that text, and the texts that are their own normal
  text are those that end in a separator only if they are the root;
* a normal text ends in a separator only if it is the root;
* the normal text stands for the same path: it has the same components, and is absolute
  if and only if the text is;
* two absolute texts have the same normal text if and only if they differ in the number
  of trailing separators only;
* the level of a path below a base is that of their normal texts;
* levels of paths with less than 2^32 components add up. -/
theorem normal_form :
    (∀ p : Path, p.normalize.normalize = p.normalize ∧
      (p.normalize = p ↔ (p.text.toList.getLast? = some '/' → p.text = "/")) ∧
      (p.normalize.text.toList.getLast? = some '/' → p.normalize.text = "/") ∧
      p.normalize.components = p.components ∧ p.normalize.isAbsolute = p.isAbsolute) ∧
    (∀ p q : Path, p.isAbsolute = true → q.isAbsolute = true →
      (p.normalize = q.normalize ↔ ∃ stem m n,
        p.text.toList = stem ++ List.replicate m '/' ∧
        q.text.toList = stem ++ List.replicate n '/')) ∧
    (∀ b p : Path, level? b.normalize p.normalize = level? b p) ∧
    ∀ a b c : Path, c.components.length < UInt32.size → ∀ m n,
      level? a b = some m → level? b c = some n → level? a c = some (m + n) := by
  refine ⟨fun p => ⟨?_, normalize_eq_iff, text_eq_of_getLast?, components_normalize_eq p, ?_⟩,
    fun p q hp hq => normalize_eq_normalize_iff hp hq,
    fun b p => level?_congr (components_normalize_eq b) (components_normalize_eq p),
    fun a b c hshort m n => level?_add hshort⟩
  · rw [normalize_eq_iff]
    exact text_eq_of_getLast?
  · rw [isAbsolute, toList_normalize, head?_normalizeChars, isAbsolute]

/-- Two spellings of a path with a dot and two separators inside, and the levels from the
root to it. -/
theorem normal_form_of_spellings :
    let a : Path := ⟨"///"⟩
    let b : Path := ⟨"/data/."⟩
    let c : Path := ⟨"/data//./a///"⟩
    (a.isAbsolute = true ∧ c.isAbsolute = true ∧ c.components.length < UInt32.size) ∧
    a.normalize = (⟨"/"⟩ : Path).normalize ∧ c.normalize = (⟨"/data//./a"⟩ : Path).normalize ∧
    level? a b = some 1 ∧ level? b c = some 1 ∧ level? a c = some 2 ∧
    level? a.normalize c.normalize = some 2 := by
  intro a b c
  obtain ⟨-, hsame, hlevel, hadd⟩ := normal_form
  have habs : a.isAbsolute = true ∧ c.isAbsolute = true ∧ c.components.length < UInt32.size := by
    decide +kernel
  have hab : level? a b = some 1 := by decide +kernel
  have hbc : level? b c = some 1 := by decide +kernel
  have hac : level? a c = some 2 := hadd a b c habs.2.2 1 1 hab hbc
  refine ⟨habs, (hsame a ⟨"/"⟩ habs.1 (by decide)).2 ⟨[], 3, 1, by decide, by decide⟩,
    (hsame c ⟨"/data//./a"⟩ habs.2.1 (by decide)).2 ⟨"/data//./a".toList, 3, 0, ?_, ?_⟩,
    hab, hbc, hac, (hlevel a c).trans hac⟩
  · decide
  · decide

end DiskWatch.Path
