import Mathlib.Algebra.Order.Ring.Nat
import Mathlib.Tactic.Common

/-!
# Decimal digits of a number

How many digits a number has, and with which one it starts.
-/

namespace AuctionLog.Digits

variable {value : Nat}

theorem lt_ten_pow_length (value : Nat) : value < 10 ^ (Nat.toDigits 10 value).length :=
  (Nat.length_toDigits_le_iff (by decide) Nat.length_toDigits_pos).mp (Nat.le_refl _)

theorem ten_pow_length_le (hvalue : value ≠ 0) :
    10 ^ ((Nat.toDigits 10 value).length - 1) ≤ value := by
  by_contra hlt
  have hpos : 0 < (Nat.toDigits 10 value).length := Nat.length_toDigits_pos
  rcases Nat.eq_zero_or_pos ((Nat.toDigits 10 value).length - 1) with hone | hmore
  · rw [hone] at hlt
    omega
  · have := (Nat.length_toDigits_le_iff (by decide) hmore).mpr (Nat.lt_of_not_le hlt)
    omega

theorem isDigit_of_mem {char : Char} (hmem : char ∈ Nat.toDigits 10 value) : char.isDigit :=
  Nat.isDigit_of_mem_toDigits (by decide) (by decide) hmem

theorem toNat_of_isDigit {char : Char} (hdigit : char.isDigit) :
    0x30 ≤ char.toNat ∧ char.toNat ≤ 0x39 := by
  simpa [Char.isDigit, UInt32.le_iff_toNat_le] using hdigit

theorem ofDigitChars_lt {digits : List Char} (hdigits : ∀ char ∈ digits, char.isDigit) :
    Nat.ofDigitChars 10 digits 0 < 10 ^ digits.length := by
  induction digits with
  | nil => simp
  | cons char digits ih =>
      obtain ⟨hchar, hdigits⟩ := List.forall_mem_cons.mp hdigits
      have hcode := toNat_of_isDigit hchar
      have hrest := ih hdigits
      have hlead : char.toNat - 48 ≤ 9 := by
        omega
      have hproduct := Nat.mul_le_mul_left (10 ^ digits.length) hlead
      rw [Nat.ofDigitChars_cons, Nat.ofDigitChars_eq_ofDigitChars_zero, List.length_cons,
        Nat.pow_succ]
      simp only [Nat.mul_zero, Nat.zero_add, Char.reduceToNat]
      omega

theorem head_ne_zero (hvalue : value ≠ 0) {digits : List Char} :
    Nat.toDigits 10 value ≠ '0' :: digits := by
  intro hzero
  have hsize := ten_pow_length_le hvalue
  have hdigits : ∀ char ∈ digits, char.isDigit := by
    intro char hmem
    exact isDigit_of_mem (hzero ▸ List.mem_cons_of_mem _ hmem)
  have hvalue : Nat.ofDigitChars 10 digits 0 = value := by
    have hall := @Nat.ofDigitChars_ten_toDigits value
    rw [hzero, Nat.ofDigitChars_cons] at hall
    simpa using hall
  have hlt := ofDigitChars_lt hdigits
  rw [hzero, List.length_cons, Nat.add_sub_cancel] at hsize
  omega

end AuctionLog.Digits
