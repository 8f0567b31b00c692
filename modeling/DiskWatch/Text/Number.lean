/-
DiskWatch/Text/Number.lean

Whole numbers in decimal notation.  Reading goes from left to right and stops
at the first thing that is wrong: a character that is no digit, or a digit
that takes the value past the greatest number allowed.  One leading plus sign
is accepted.

Main results: what `decimal` writes is digits only (`decimal_digits`), and
`readUpTo` reads it back (`readUpTo_decimal`), for each word of 64 bits in
particular (`readWord_decimal`).
-/

namespace DiskWatch.Text

/-- Why a text is not a whole number of the wanted size. -/
inductive NumberFault
  | noText
  | badDigit
  | tooLarge
  deriving DecidableEq, Repr

/-- The fault in words. -/
def NumberFault.message : NumberFault → String
  | .noText => "cannot parse integer from empty string"
  | .badDigit => "invalid digit found in string"
  | .tooLarge => "number too large to fit in target type"

/-! ### Digits -/

/-- The value of a decimal digit. -/
def digit? (c : Char) : Option Nat :=
  if '0' ≤ c ∧ c ≤ '9' then some (c.toNat - '0'.toNat) else none

/-- The digit of value `d`, for `d` below ten. -/
def digitChar (d : Nat) : Char := Char.ofNat ('0'.toNat + d)

theorem digit?_digitChar {d : Nat} (h : d < 10) : digit? (digitChar d) = some d := by
  have : ∀ d : Fin 10, digit? (digitChar d.val) = some d.val := by decide
  exact this ⟨d, h⟩

/-- Reads digits on top of the value `acc` of the digits before them. -/
def readDigits (greatest : Nat) : Nat → List Char → Except NumberFault Nat
  | acc, [] => .ok acc
  | acc, c :: cs =>
    match digit? c with
    | none => .error .badDigit
    | some d =>
      if acc * 10 + d ≤ greatest then readDigits greatest (acc * 10 + d) cs
      else .error .tooLarge

/-- Reads a whole number up to `greatest`.  A sign alone is a bad digit. -/
def readUpTo (greatest : Nat) (cs : List Char) : Except NumberFault Nat :=
  match cs with
  | [] => .error .noText
  | ['+'] => .error .badDigit
  | '+' :: rest => readDigits greatest 0 rest
  | _ => readDigits greatest 0 cs

theorem readDigits_le {greatest acc n : Nat} {cs : List Char} (ha : acc ≤ greatest)
    (h : readDigits greatest acc cs = .ok n) : n ≤ greatest := by
  induction cs generalizing acc with
  | nil => simp only [readDigits, Except.ok.injEq] at h; omega
  | cons c cs ih =>
    simp only [readDigits] at h
    split at h
    · simp at h
    · split at h
      · next hle => exact ih hle h
      · simp at h

/-- A number that was read is within the limit. -/
theorem readUpTo_le {greatest n : Nat} {cs : List Char} (h : readUpTo greatest cs = .ok n) :
    n ≤ greatest := by
  unfold readUpTo at h
  split at h <;> first | simp at h | exact readDigits_le (Nat.zero_le _) h

/-! ### Words of 32 and 64 bits -/

/-- Reads a 64-bit word. -/
def readWord (cs : List Char) : Except NumberFault UInt64 :=
  match readUpTo (UInt64.size - 1) cs with
  | .ok n => .ok (UInt64.ofNat n)
  | .error e => .error e

/-- Reads a 64-bit word where the kind of fault does not matter. -/
def readWord? (cs : List Char) : Option UInt64 := (readWord cs).toOption

/-! ### Writing -/

/-- The decimal digits of `n` in front of `acc`. -/
def decimalOnto (n : Nat) (acc : List Char) : List Char :=
  if n < 10 then digitChar n :: acc
  else decimalOnto (n / 10) (digitChar (n % 10) :: acc)

/-- The decimal notation, without leading zeros. -/
def decimal (n : Nat) : List Char := decimalOnto n []

theorem decimalOnto_append (n : Nat) (acc : List Char) :
    decimalOnto n acc = decimal n ++ acc := by
  induction n using Nat.strongRecOn generalizing acc with
  | _ n ih =>
    unfold decimal
    rw [decimalOnto, decimalOnto.eq_1 n []]
    by_cases h : n < 10
    · simp [h]
    · simp only [h, if_false]
      rw [ih (n / 10) (by omega), ih (n / 10) (by omega) [_]]
      simp

/-- The notation of a larger number is that of its tens and its last digit. -/
theorem decimal_of_ge {n : Nat} (h : 10 ≤ n) :
    decimal n = decimal (n / 10) ++ [digitChar (n % 10)] := by
  have hn : ¬ n < 10 := by omega
  rw [decimal, decimalOnto, if_neg hn, decimalOnto_append]

theorem decimal_of_lt {n : Nat} (h : n < 10) : decimal n = [digitChar n] := by
  rw [decimal, decimalOnto, if_pos h]

/-- Every character written is a digit. -/
theorem decimal_digits (n : Nat) : ∀ c ∈ decimal n, (digit? c).isSome := by
  induction n using Nat.strongRecOn with
  | _ n ih =>
    by_cases h : n < 10
    · rw [decimal_of_lt h]
      simp [digit?_digitChar h]
    · rw [decimal_of_ge (by omega)]
      intro c hc
      rcases List.mem_append.1 hc with hc | hc
      · exact ih _ (by omega) c hc
      · rw [List.mem_singleton.1 hc, digit?_digitChar (by omega)]; rfl

theorem decimal_ne_nil (n : Nat) : decimal n ≠ [] := by
  by_cases h : n < 10
  · simp [decimal_of_lt h]
  · simp [decimal_of_ge (Nat.le_of_not_lt h)]

theorem readDigits_append {greatest acc n : Nat} {cs ds : List Char}
    (h : readDigits greatest acc cs = .ok n) :
    readDigits greatest acc (cs ++ ds) = readDigits greatest n ds := by
  induction cs generalizing acc with
  | nil => simp only [readDigits, Except.ok.injEq] at h; simp [h]
  | cons c cs ih =>
    simp only [readDigits, List.cons_append] at h ⊢
    split at h
    · simp at h
    · split at h
      · next hle => simp only [hle, if_true]; exact ih h
      · simp at h

theorem readDigits_decimal {greatest n : Nat} (h : n ≤ greatest) :
    readDigits greatest 0 (decimal n) = .ok n := by
  induction n using Nat.strongRecOn with
  | _ n ih =>
    by_cases hn : n < 10
    · simp [decimal_of_lt hn, readDigits, digit?_digitChar hn, h]
    · rw [decimal_of_ge (by omega), readDigits_append (ih (n / 10) (by omega) (by omega))]
      have hd : n / 10 * 10 + n % 10 = n := by omega
      simp [readDigits, digit?_digitChar (show n % 10 < 10 by omega), hd, h]

/-- A number within the limit is read back from its notation. -/
theorem readUpTo_decimal {greatest n : Nat} (h : n ≤ greatest) :
    readUpTo greatest (decimal n) = .ok n := by
  have hp : ∀ c ∈ decimal n, c ≠ '+' := by
    intro c hc he
    have := decimal_digits n c hc
    rw [he] at this
    exact absurd this (by decide)
  unfold readUpTo
  split
  · next he => exact absurd he (decimal_ne_nil n)
  · next he => exact absurd rfl (hp '+' (by rw [he]; simp))
  · next he => exact absurd rfl (hp '+' (by rw [he]; simp))
  · exact readDigits_decimal h

/-- A word is read back from its notation. -/
theorem readWord_decimal (n : UInt64) : readWord (decimal n.toNat) = .ok n := by
  have hle : n.toNat ≤ UInt64.size - 1 := Nat.le_sub_one_of_lt n.toNat_lt
  rw [readWord, readUpTo_decimal hle]
  exact congrArg Except.ok UInt64.ofNat_toNat

theorem readWord?_decimal (n : UInt64) : readWord? (decimal n.toNat) = some n := by
  rw [readWord?, readWord_decimal]
  rfl

/-- The decimal notation as a string. -/
def showNat (n : Nat) : String := String.ofList (decimal n)

/-- The notation of a whole number that may be negative. -/
def showInt (i : Int) : String :=
  if i < 0 then "-" ++ showNat i.natAbs else showNat i.natAbs

end DiskWatch.Text
