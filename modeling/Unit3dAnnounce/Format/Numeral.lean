import Mathlib.Data.List.Basic

/-!
# Decimal numerals

The texts that stand for a natural number: its digits, with any number of leading zeros, and a plus
sign before them or none.
-/

namespace Numeral

def digit (d : Fin 10) : UInt8 := 0x30 + UInt8.ofNat d

def addDigit (n : ℕ) (d : Fin 10) : ℕ := n * 10 + d

def value (digits : List (Fin 10)) : ℕ := digits.foldl addDigit 0

inductive Denotes : List UInt8 → ℕ → Prop
  | plain {digits : List (Fin 10)} (hne : digits ≠ []) : Denotes (digits.map digit) (value digits)
  | signed {digits : List (Fin 10)} (hne : digits ≠ []) :
      Denotes (0x2B :: digits.map digit) (value digits)

lemma toNat_digit (d : Fin 10) : (digit d).toNat = 48 + d := by
  revert d
  decide

lemma digit_injective : Function.Injective digit := by
  intro d d' h
  have hnat := congrArg UInt8.toNat h
  rw [toNat_digit, toNat_digit] at hnat
  exact Fin.ext (by omega)

lemma digit_bounds (d : Fin 10) : 0x30 ≤ digit d ∧ digit d ≤ 0x39 := by
  revert d
  decide

lemma digit_sub (d : Fin 10) : (digit d - 0x30).toNat = d := by
  revert d
  decide

lemma exists_digit {c : UInt8} (h : 0x30 ≤ c ∧ c ≤ 0x39) : ∃ d, c = digit d := by
  have hlow : 48 ≤ c.toNat := h.1
  have hhigh : c.toNat ≤ 57 := h.2
  refine ⟨⟨c.toNat - 48, by omega⟩, UInt8.toNat_inj.mp ?_⟩
  rw [toNat_digit]
  simp only
  omega

/-- Every further digit makes the number larger, or leaves it as it is. -/
lemma le_foldl_addDigit (n : ℕ) (digits : List (Fin 10)) : n ≤ digits.foldl addDigit n := by
  induction digits generalizing n with
  | nil => exact Nat.le_refl n
  | cons d digits ih =>
    have hd : n ≤ addDigit n d := by
      unfold addDigit
      omega
    exact Nat.le_trans hd (ih (addDigit n d))

/-- A text with a sign before it is no text of digits. -/
lemma head?_digits_ne (digits : List (Fin 10)) : (digits.map digit).head? ≠ some 0x2B := by
  cases digits with
  | nil => nofun
  | cons d digits =>
    intro h
    have hd := congrArg UInt8.toNat (Option.some.inj h)
    rw [toNat_digit] at hd
    have hplus : (0x2B : UInt8).toNat = 43 := rfl
    omega

end Numeral
