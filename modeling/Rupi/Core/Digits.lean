import Mathlib.Tactic

/-!
Numbers that are written in decimal digits.

- `parseDigits`: digits alone.
- `parseUnsigned`: digits of a machine integer, which may have a plus sign before them.
-/

namespace Rupi

/-- Decimal digits, at least one. -/
def parseDigits (digits : List Char) : Option ℕ :=
  if digits ≠ [] ∧ digits.all Char.isDigit then some (Nat.ofDigitChars 10 digits 0) else none

/-- `str::parse` to an unsigned type with values below `bound`. -/
def parseUnsigned (bound : ℕ) (text : List Char) : Option ℕ :=
  let digits := match text with
    | '+' :: digits => digits
    | digits => digits
  (parseDigits digits).filter (· < bound)

section Digits

variable {text digits : List Char} {bound n : ℕ}

lemma parseUnsigned_lt (h : parseUnsigned bound text = some n) : n < bound := by
  simpa using Option.mem_filter_iff.1 h |>.2

lemma parseDigits_digits (hne : digits ≠ []) (hall : digits.all Char.isDigit = true) :
    parseDigits digits = some (Nat.ofDigitChars 10 digits 0) := if_pos ⟨hne, hall⟩

/-- Digits have no sign before them. -/
lemma ne_sign_of_digits {c : Char} (hall : (c :: digits).all Char.isDigit = true) :
    c ≠ '-' ∧ c ≠ '+' := by
  have hc : c.isDigit = true := List.all_eq_true.1 hall c List.mem_cons_self
  constructor <;> rintro rfl <;> exact absurd hc (by decide)

lemma parseUnsigned_eq (hne : digits ≠ []) (hall : digits.all Char.isDigit = true) :
    parseUnsigned bound digits = if Nat.ofDigitChars 10 digits 0 < bound then
      some (Nat.ofDigitChars 10 digits 0) else none := by
  unfold parseUnsigned
  split
  · exact absurd rfl (ne_sign_of_digits hall).2
  · dsimp only
    rw [parseDigits_digits hne hall, Option.filter_some]
    simp only [decide_eq_true_eq]

lemma parseUnsigned_digits (hne : digits ≠ []) (hall : digits.all Char.isDigit = true)
    (hlt : Nat.ofDigitChars 10 digits 0 < bound) :
    parseUnsigned bound digits = some (Nat.ofDigitChars 10 digits 0) := by
  rw [parseUnsigned_eq hne hall, if_pos hlt]

lemma toNat_of_isDigit {c : Char} (hc : c.isDigit = true) : c.toNat ≤ 57 := by
  simp only [Char.isDigit, Bool.and_eq_true, decide_eq_true_eq, UInt32.le_iff_toNat_le] at hc
  exact hc.2

/-- A group of digits is less than the power that is as long. -/
lemma ofDigitChars_lt (hall : digits.all Char.isDigit = true) :
    Nat.ofDigitChars 10 digits 0 < 10 ^ digits.length := by
  induction digits with
  | nil => simp
  | cons c digits ih =>
    rw [List.all_cons, Bool.and_eq_true] at hall
    have hdigit : c.toNat - '0'.toNat ≤ 9 := by
      have hle := toNat_of_isDigit hall.1
      have hzero : '0'.toNat = 48 := rfl
      omega
    have hrest := ih hall.2
    rw [Nat.ofDigitChars_cons, Nat.ofDigitChars_eq_ofDigitChars_zero, Nat.mul_zero, Nat.zero_add,
      List.length_cons, pow_succ]
    have hmul := Nat.mul_le_mul_left (10 ^ digits.length) hdigit
    omega

end Digits

end Rupi
