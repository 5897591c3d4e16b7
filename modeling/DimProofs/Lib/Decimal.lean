/-
Decimal texts: digits and their value, padding with zeros on either side, and zeros taken off the end.
-/
import Mathlib

namespace Decimal

/-- The value of a sequence of digits; of none it is zero. -/
def value (digits : List Char) : Nat := Nat.ofDigitChars 10 digits 0

def Digits (text : List Char) : Prop := ∀ c ∈ text, c.isDigit = true

@[simp] theorem value_toDigits (n : Nat) : value (Nat.toDigits 10 n) = n := Nat.ofDigitChars_ten_toDigits

theorem value_append (left right : List Char) : value (left ++ right) = 10 ^ right.length * value left + value right := by
  rw [value, Nat.ofDigitChars_append, Nat.ofDigitChars_eq_ofDigitChars_zero]
  rfl

@[simp] theorem value_zeros (n : Nat) : value (List.replicate n '0') = 0 := by
  rw [value, Nat.ofDigitChars_replicate_zero, Nat.mul_zero]

theorem digits_toDigits (n : Nat) : Digits (Nat.toDigits 10 n) := fun _ h =>
  Nat.isDigit_of_mem_toDigits (by decide) (by decide) h

theorem digits_zeros (n : Nat) : Digits (List.replicate n '0') := fun c h => by
  rw [List.eq_of_mem_replicate h]
  rfl

/-- A positive number has no leading zero. -/
theorem head_toDigits (n : Nat) (h : 0 < n) : (Nat.toDigits 10 n).head? ≠ some '0' := by
  induction n using Nat.strongRecOn with
  | _ n ih =>
    by_cases hn : n < 10
    · rw [Nat.toDigits_of_lt_base hn]
      have hdigit : ∀ m < 10, 0 < m → Nat.digitChar m ≠ '0' := by decide
      intro hhead
      exact hdigit n hn h (Option.some.inj hhead)
    · rw [Nat.toDigits_of_base_le (by decide) (by omega), List.head?_append_of_ne_nil _ Nat.toDigits_ne_nil]
      exact ih (n / 10) (by omega) (by omega)

theorem Digits.append {left right : List Char} (hleft : Digits left) (hright : Digits right) : Digits (left ++ right) := by
  intro c h
  rcases List.mem_append.mp h with h | h
  · exact hleft c h
  · exact hright c h

theorem Digits.notMem {text : List Char} {c : Char} (h : Digits text) (hc : c.isDigit = false) : c ∉ text := by
  intro hmem
  rw [h c hmem] at hc
  cases hc

/-! ## Padding -/

/-- `padStart(width, "0")`. -/
def padStart (width : Nat) (text : List Char) : List Char := List.replicate (width - text.length) '0' ++ text

/-- `padEnd(width, "0")`. -/
def padEnd (width : Nat) (text : List Char) : List Char := text ++ List.replicate (width - text.length) '0'

@[simp] theorem value_padStart (width : Nat) (text : List Char) : value (padStart width text) = value text := by
  rw [padStart, value_append, value_zeros, Nat.mul_zero, Nat.zero_add]

theorem value_padEnd (width : Nat) (text : List Char) :
    value (padEnd width text) = 10 ^ (width - text.length) * value text := by
  rw [padEnd, value_append, value_zeros, List.length_replicate, Nat.add_zero]

theorem Digits.padStart {text : List Char} (h : Digits text) (width : Nat) : Digits (padStart width text) :=
  (digits_zeros _).append h

theorem Digits.padEnd {text : List Char} (h : Digits text) (width : Nat) : Digits (padEnd width text) :=
  h.append (digits_zeros _)

/-- A number below a power of ten is padded to that many digits. -/
theorem length_padStart {width n : Nat} (hwidth : 0 < width) (h : n < 10 ^ width) :
    (padStart width (Nat.toDigits 10 n)).length = width := by
  have hle := (Nat.length_toDigits_le_iff (by decide : 1 < 10) hwidth).mpr h
  rw [padStart, List.length_append, List.length_replicate]
  omega

/-! ## Zeros at the end -/

/-- `replace(/0+$/, "")`. -/
def stripEnd (text : List Char) : List Char := text.rdropWhile (· = '0')

theorem stripEnd_append (text : List Char) :
    stripEnd text ++ List.replicate (text.length - (stripEnd text).length) '0' = text := by
  have hzero : ∀ c ∈ text.rtakeWhile (· = '0'), c = '0' := fun c h => by simpa using List.mem_rtakeWhile_imp h
  have hzeros := List.eq_replicate_iff.mpr ⟨rfl, hzero⟩
  have hsplit : stripEnd text ++ text.rtakeWhile (· = '0') = text := List.rdropWhile_append_rtakeWhile
  have hlength := congrArg List.length hsplit
  rw [List.length_append] at hlength
  have hcount : text.length - (stripEnd text).length = (text.rtakeWhile (· = '0')).length := by omega
  rw [hcount, ← hzeros, hsplit]

/-- The zeros that were taken off come back. -/
theorem padEnd_stripEnd (text : List Char) : padEnd text.length (stripEnd text) = text := stripEnd_append text

theorem length_stripEnd_le (text : List Char) : (stripEnd text).length ≤ text.length := by
  have h := congrArg List.length (stripEnd_append text)
  rw [List.length_append] at h
  omega

theorem Digits.stripEnd {text : List Char} (h : Digits text) : Digits (stripEnd text) := by
  intro c hc
  refine h c ?_
  rw [← stripEnd_append text]
  exact List.mem_append_left _ hc

end Decimal
