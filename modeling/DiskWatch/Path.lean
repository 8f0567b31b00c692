/-
DiskWatch/Path.lean

File system paths.  A path is kept as the text it was given as; what it means
is its list of components (`components`), in which repeated separators, a
trailing separator and inner single dots leave no trace.  Two dots are kept,
because nothing here looks at links.

Paths are ordered and told apart by their components (`compare_eq_iff`), so
`/a//b/` and `/a/b` are one key of a table.  `level?` counts the components of
a path below a base, and `normalize` cuts trailing separators.

Main results: the order of components is a total order (the instances of
`Std.TransCmp` and `Std.LawfulEqCmp`), and `normalize` is idempotent and keeps
the components of an absolute path (`components_normalize`).
-/
import DiskWatch.Text.Blank

namespace DiskWatch

/-! ### Components -/

/-- One step of a path. -/
inductive Component
  | root
  | here
  | up
  | name (text : String)
  deriving DecidableEq, Repr

namespace Component

/-- The rank of a kind of component, and the text that tells names apart. -/
def key : Component → Nat × String
  | root => (0, "")
  | here => (1, "")
  | up => (2, "")
  | name text => (3, text)

theorem key_injective {a b : Component} (h : a.key = b.key) : a = b := by
  cases a <;> cases b <;> simp_all [key]

/-- The root comes first, then the dots, then names by their characters. -/
def compare (a b : Component) : Ordering :=
  (Ord.compare a.key.1 b.key.1).then (Ord.compare a.key.2 b.key.2)

instance : Std.TransCmp compare :=
  inferInstanceAs (Std.TransCmp (compareLex (compareOn fun c : Component => c.key.1)
    (compareOn fun c : Component => c.key.2)))

instance : Std.LawfulEqCmp compare where
  eq_of_compare {a b} h := by
    have h1 := Ordering.then_eq_eq.1 h
    exact key_injective (Prod.ext (Std.LawfulEqOrd.eq_of_compare h1.1)
      (Std.LawfulEqOrd.eq_of_compare h1.2))

instance : Ord Component := ⟨compare⟩
instance : Std.TransOrd Component := inferInstanceAs (Std.TransCmp compare)
instance : Std.LawfulEqOrd Component := inferInstanceAs (Std.LawfulEqCmp compare)

end Component

/-! ### Paths -/

/-- A path, as the text it was given as. -/
structure Path where
  text : String
  deriving DecidableEq, Repr

namespace Path

/-- The meaning of a part between separators that is not the first of a
relative path.  Empty parts and single dots mean nothing. -/
def part? (part : List Char) : Option Component :=
  match part with
  | [] => none
  | ['.'] => none
  | ['.', '.'] => some .up
  | part => some (.name (String.ofList part))

/-- The components of a path text. -/
def componentsOf (cs : List Char) : List Component :=
  match cs with
  | '/' :: rest => .root :: (Text.pieces (· == '/') rest).filterMap part?
  | cs =>
    match Text.pieces (· == '/') cs with
    | ['.'] :: rest => .here :: rest.filterMap part?
    | parts => parts.filterMap part?

/-- The components of a path. -/
def components (p : Path) : List Component := componentsOf p.text.toList

/-- Whether the path starts at the root. -/
def isAbsolute (p : Path) : Bool := p.text.toList.head? == some '/'

/-- Paths are compared by their components, the first difference deciding. -/
def compare (p q : Path) : Ordering := Ord.compare p.components q.components

instance : Std.TransCmp compare :=
  inferInstanceAs (Std.TransCmp (compareOn Path.components))

/-- Two paths are one key if and only if they have the same components. -/
theorem compare_eq_iff {p q : Path} :
    compare p q = .eq ↔ p.components = q.components :=
  ⟨fun h => Std.LawfulEqOrd.eq_of_compare h, fun h => by
    unfold compare; rw [h]; exact Std.ReflCmp.compare_self⟩

/-! ### Levels -/

/-- What is left of `whole` behind `start`. -/
def remainder? : (start whole : List Component) → Option (List Component)
  | [], whole => some whole
  | _ :: _, [] => none
  | a :: start, b :: whole => if a = b then remainder? start whole else none

theorem remainder?_eq_some {start whole rest : List Component} :
    remainder? start whole = some rest ↔ whole = start ++ rest := by
  induction start generalizing whole with
  | nil => simp [remainder?]
  | cons a start ih =>
    cases whole with
    | nil => simp [remainder?]
    | cons b whole =>
      by_cases h : a = b
      · subst h; simp [remainder?, ih]
      · simp [remainder?, h, Ne.symm h]

/-- The number of components of `p` below `base`, as a 32-bit word, or nothing
outside of it. -/
def level? (base p : Path) : Option Nat :=
  (remainder? base.components p.components).map (·.length % UInt32.size)

/-! ### Trailing separators -/

/-- A path text without trailing separators; the root stays. -/
def normalizeChars (cs : List Char) : List Char :=
  let trimmed := Text.dropEndWhile (· == '/') cs
  if trimmed.isEmpty && cs.head? == some '/' then ['/'] else trimmed

theorem dropWhile_dropWhile {α : Type} (p : α → Bool) (l : List α) :
    (l.dropWhile p).dropWhile p = l.dropWhile p := by
  induction l with
  | nil => rfl
  | cons a l ih => by_cases h : p a <;> simp [h, ih]

theorem dropEndWhile_idem (p : Char → Bool) (cs : List Char) :
    Text.dropEndWhile p (Text.dropEndWhile p cs) = Text.dropEndWhile p cs := by
  simp [Text.dropEndWhile, dropWhile_dropWhile]

/-- Cutting trailing separators a second time changes nothing. -/
theorem normalizeChars_idem (cs : List Char) :
    normalizeChars (normalizeChars cs) = normalizeChars cs := by
  unfold normalizeChars
  by_cases h : (Text.dropEndWhile (· == '/') cs).isEmpty && cs.head? == some '/'
  · rw [if_pos h]; decide
  · simp only [h, Bool.false_eq_true, if_false, dropEndWhile_idem]
    split
    · next he =>
      simp only [Bool.and_eq_true, List.isEmpty_iff] at he
      simp [he.1] at he
    · rfl

/-- The path without trailing separators; the root stays. -/
def normalize (p : Path) : Path := ⟨String.ofList (normalizeChars p.text.toList)⟩

/-- Trailing separators mean nothing. -/
theorem filterMap_pieces_append (xs : List Char) {seps : List Char}
    (h : ∀ c ∈ seps, (c == '/') = true) :
    (Text.pieces (· == '/') (xs ++ seps)).filterMap part? =
      (Text.pieces (· == '/') xs).filterMap part? := by
  have hnone : (seps.map fun _ => ([] : List Char)).filterMap part? = [] := by simp [part?]
  rw [Text.pieces_append_separators xs h, List.filterMap_append, hnone, List.append_nil]

/-- An absolute path has the same components without its trailing separators. -/
theorem components_normalize {p : Path} (h : p.isAbsolute) :
    p.normalize.components = p.components := by
  rw [isAbsolute, beq_iff_eq] at h
  obtain ⟨seps, hseps, htext⟩ := Text.exists_dropEndWhile_append (· == '/') p.text.toList
  rw [components, components, normalize, String.toList_ofList, normalizeChars, h]
  generalize Text.dropEndWhile (· == '/') p.text.toList = stem at htext ⊢
  rw [← htext] at h ⊢
  cases stem with
  | nil =>
    -- nothing but separators is the root
    cases seps with
    | nil => cases h
    | cons c seps =>
      obtain ⟨hc, hrest⟩ := List.forall_mem_cons.1 hseps
      obtain rfl := beq_iff_eq.1 hc
      exact congrArg (Component.root :: ·) (filterMap_pieces_append [] hrest).symm
  | cons c stem =>
    obtain rfl : c = '/' := Option.some.inj h
    exact congrArg (Component.root :: ·) (filterMap_pieces_append stem hseps).symm
end Path

end DiskWatch
