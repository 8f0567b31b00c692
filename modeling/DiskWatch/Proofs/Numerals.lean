/-
DiskWatch/Proofs/Numerals.lean

The texts that are read as a number.  A numeral is one decimal digit or more, with a
plus sign in front or not; leading zeros do not matter, and its value is that of its
digits to base ten (`valueOf`).

The digits are read from left to right on top of the value of those before them, and the
value only grows.  So the reading stops early where the whole numeral would be beyond
the limit, and nowhere else (`readDigits_eq_ok_iff`): it takes exactly the numerals
within the limit, each for its value (`readUpTo_eq_ok_iff`, `readWord_eq_ok_iff`).
-/
import DiskWatch.Text.Number
import Mathlib.Data.Nat.Digits.Defs

namespace DiskWatch.Text

/-! ### Numerals -/

/-- The value of some digits to base ten, the last one counting least. -/
def valueOf (ds : List Char) : Nat :=
  Nat.ofDigits 10 (ds.reverse.map fun d => d.toNat - '0'.toNat)

/-- The notations of a number. -/
inductive Numeral : List Char → Nat → Prop
  | plain {ds : List Char} (hne : ds ≠ []) (hd : ∀ d ∈ ds, d.isDigit = true) :
      Numeral ds (valueOf ds)
  | signed {ds : List Char} (hne : ds ≠ []) (hd : ∀ d ∈ ds, d.isDigit = true) :
      Numeral ('+' :: ds) (valueOf ds)

variable {greatest n d : Nat} {c : Char} {seen rest cs ds : List Char}

theorem digit?_eq_some_iff :
    digit? c = some d ↔ c.isDigit = true ∧ c.toNat - '0'.toNat = d := by
  have hdigit : c.isDigit = true ↔ '0' ≤ c ∧ c ≤ '9' := by
    rw [Char.isDigit, Bool.and_eq_true, decide_eq_true_iff, decide_eq_true_iff]
    rfl
  rw [hdigit, digit?]
  split
  · next h => simp [h]
  · next h => simp [h]

/-- Another digit makes ten of each unit before it. -/
theorem valueOf_concat (seen : List Char) (c : Char) :
    valueOf (seen ++ [c]) = valueOf seen * 10 + (c.toNat - '0'.toNat) := by
  simp only [valueOf, List.reverse_append, List.reverse_singleton, List.singleton_append,
    List.map_cons, Nat.ofDigits_cons]
  rw [Nat.add_comm, Nat.mul_comm]

/-- More digits do not make less. -/
theorem valueOf_le_append (seen rest : List Char) : valueOf seen ≤ valueOf (seen ++ rest) := by
  simp only [valueOf, List.reverse_append, List.map_append, Nat.ofDigits_append]
  exact Nat.le_trans (Nat.le_mul_of_pos_left _ (by positivity)) (Nat.le_add_left _ _)

/-! ### Reading -/

/-- On top of the value of digits before them, digits are read if the whole of them is
within the limit. -/
theorem readDigits_eq_ok_iff (h : valueOf seen ≤ greatest) :
    readDigits greatest (valueOf seen) rest = .ok n ↔
      (∀ d ∈ rest, d.isDigit = true) ∧ valueOf (seen ++ rest) = n ∧ n ≤ greatest := by
  induction rest generalizing seen with
  | nil =>
    simp only [readDigits, Except.ok.injEq, List.append_nil, List.not_mem_nil, false_implies,
      implies_true, true_and]
    exact ⟨fun he => ⟨he, he ▸ h⟩, And.left⟩
  | cons c rest ih =>
    rw [readDigits]
    split
    · next hnone =>
      -- the first character is no digit
      constructor
      · rintro ⟨⟩
      · rintro ⟨hall, -⟩
        have hc := digit?_eq_some_iff.2 ⟨hall c List.mem_cons_self, rfl⟩
        rw [hnone] at hc
        cases hc
    · next d hd =>
      obtain ⟨hc, rfl⟩ := digit?_eq_some_iff.1 hd
      rw [← valueOf_concat, List.forall_mem_cons, List.append_cons seen c rest]
      split
      · next hle =>
        rw [ih hle, and_iff_right hc]
      · next hgt =>
        -- the value would only grow
        constructor
        · rintro ⟨⟩
        · rintro ⟨-, rfl, hle⟩
          exact absurd (Nat.le_trans (valueOf_le_append _ rest) hle) hgt

theorem readDigits_zero_eq_ok_iff : readDigits greatest 0 ds = .ok n ↔
    (∀ d ∈ ds, d.isDigit = true) ∧ valueOf ds = n ∧ n ≤ greatest := by
  have hnone : valueOf [] ≤ greatest := Nat.zero_le greatest
  exact readDigits_eq_ok_iff hnone

/-- The texts that are read are the numerals within the limit. -/
theorem readUpTo_eq_ok_iff : readUpTo greatest cs = .ok n ↔ Numeral cs n ∧ n ≤ greatest := by
  have hsign : '+'.isDigit = false := rfl
  unfold readUpTo
  split
  · constructor
    · rintro ⟨⟩
    · rintro ⟨_ | _, -⟩
      contradiction
  · constructor
    · rintro ⟨⟩
    · rintro ⟨⟨-, hd⟩ | ⟨hne, -⟩, -⟩
      · exact absurd (hd '+' List.mem_cons_self) (by decide)
      · exact absurd rfl hne
  · next rest hne =>
    rw [readDigits_zero_eq_ok_iff]
    constructor
    · rintro ⟨hd, rfl, hle⟩
      exact ⟨.signed (fun he => hne (by rw [he])) hd, hle⟩
    · rintro ⟨⟨-, hd⟩ | ⟨-, hd⟩, hle⟩
      · exact absurd (hd '+' List.mem_cons_self) (by decide)
      · exact ⟨hd, rfl, hle⟩
  · next hne _ hplain =>
    rw [readDigits_zero_eq_ok_iff]
    constructor
    · rintro ⟨hd, rfl, hle⟩
      exact ⟨.plain hne hd, hle⟩
    · rintro ⟨⟨-, hd⟩ | ⟨-, hd⟩, hle⟩
      · exact ⟨hd, rfl, hle⟩
      · exact absurd rfl (hplain _)

/-- The texts that are read as a word are its numerals. -/
theorem readWord_eq_ok_iff {w : UInt64} : readWord cs = .ok w ↔ Numeral cs w.toNat := by
  have hw : w.toNat ≤ UInt64.size - 1 := Nat.le_sub_one_of_lt w.toNat_lt
  rw [← and_iff_left (a := Numeral cs w.toNat) hw, ← readUpTo_eq_ok_iff, readWord]
  split
  · next n hn =>
    have hlt : n < UInt64.size := Nat.lt_of_le_pred (by decide) (readUpTo_le hn)
    rw [hn, Except.ok.injEq, Except.ok.injEq, ← UInt64.toNat_inj,
      UInt64.toNat_ofNat_of_lt' hlt]
  · next fault hfault =>
    rw [hfault]
    constructor <;> rintro ⟨⟩

theorem readWord?_eq_some_iff {w : UInt64} : readWord? cs = some w ↔ Numeral cs w.toNat := by
  rw [← readWord_eq_ok_iff, readWord?]
  cases readWord cs with
  | error fault => constructor <;> rintro ⟨⟩
  | ok m => simp [Except.toOption]

end DiskWatch.Text
