import AuctionLog.Double.Basic
import Mathlib.Tactic.Common
import Mathlib.Tactic.Ring
import Mathlib.Tactic.Linarith

/-!
# Numbers that round to a double

A number rounds to a double whenever it is no further from it than half the way to either
neighbour, and at half the way when the significand is even. The distance below a power of two is
half of that above it, and a number in there is rounded on the finer grid, up to a significand of 54
bits that is then halved.
-/

namespace AuctionLog.Double

/-- A quotient is rounded to `n` if it is at most one half away, and less than that if `n` is
odd. -/
theorem roundHalfEven_eq {num den n : Nat} (hden : 0 < den)
    (hlower : 2 * (n * den) ≤ 2 * num + den) (hupper : 2 * num ≤ 2 * (n * den) + den)
    (hodd : n % 2 = 1 → 2 * (n * den) < 2 * num + den ∧ 2 * num < 2 * (n * den) + den) :
    roundHalfEven num den = n := by
  have hsplit := Nat.div_add_mod' num den
  have hmod := Nat.mod_lt num hden
  unfold roundHalfEven
  generalize num / den = quotient at *
  generalize num % den = remainder at *
  have hle : quotient ≤ n := by
    by_contra hgt
    have := Nat.mul_le_mul_right den (show n + 1 ≤ quotient by omega)
    rw [Nat.add_one_mul] at this
    omega
  have hge : n ≤ quotient + 1 := by
    by_contra hgt
    have := Nat.mul_le_mul_right den (show quotient + 2 ≤ n by omega)
    rw [Nat.add_mul] at this
    omega
  have hnext := Nat.add_one_mul quotient den
  obtain rfl | rfl : n = quotient ∨ n = quotient + 1 := by omega
  · simp only
    split_ifs <;> omega
  · simp only
    split_ifs <;> omega

theorem exponentFor_eq {num den exponent : Nat} (hden : 0 < den)
    (hlower : exponent = 0 ∨ 2 ^ (52 + exponent) * den ≤ num)
    (hupper : num < 2 ^ (53 + exponent) * den) :
    exponentFor num den = exponent := by
  have hlt : num / den < 2 ^ (53 + exponent) := (Nat.div_lt_iff_lt_mul hden).mpr hupper
  unfold exponentFor
  rcases Nat.eq_zero_or_pos exponent with rfl | hpos
  · exact if_pos hlt
  · have hge : 2 ^ (52 + exponent) ≤ num / den :=
      (Nat.le_div_iff_mul_le hden).mpr (hlower.resolve_left (by omega))
    have hlarge : ¬ num / den < 0x20000000000000 := by
      have hpow : 2 ^ 53 ≤ 2 ^ (52 + exponent) := Nat.pow_le_pow_right (by decide) (by omega)
      omega
    have hlog : (num / den).log2 = 52 + exponent := by
      rw [Nat.log2_eq_iff (by omega)]
      refine ⟨hge, ?_⟩
      rwa [Nat.add_right_comm]
    simp only [hlarge, if_false, hlog]
    omega

/-- The width of the gap between a double and the one below it, in halves of the gap above it. -/
def gapBelow (d : Double) : Nat :=
  if d.significand = 0x10000000000000 ∧ 0 < d.exponent then 1 else 2

theorem ofParts?_self (d : Double) : ofParts? d.negative d.significand d.exponent = some d := by
  have hsignificand : d.significand ≠ 0x20000000000000 := by
    have := d.significand_lt
    omega
  simp only [ofParts?, hsignificand, if_false]
  rw [dif_pos ⟨d.significand_lt, d.normal, d.exponent_le⟩]

variable {d : Double} {num den : Nat}

theorem ofParts?_halved {exponent : Nat} (hsignificand : d.significand = 0x10000000000000)
    (hexponent : d.exponent = exponent + 1) :
    ofParts? d.negative 0x20000000000000 exponent = some d := by
  have hself := ofParts?_self d
  rw [hsignificand, hexponent] at hself
  simpa [ofParts?] using hself

/-- A quotient that has as many bits as the double is rounded on the double's own grid. -/
theorem ofSteps?_of_coarse (hden : 0 < den)
    (hfirst : d.exponent = 0 ∨ 2 ^ (52 + d.exponent) * den ≤ num)
    (hlower : 2 * (d.significand * (den * 2 ^ d.exponent)) ≤ 2 * num + den * 2 ^ d.exponent)
    (hupper : 2 * num ≤ 2 * (d.significand * (den * 2 ^ d.exponent)) + den * 2 ^ d.exponent)
    (hodd : d.significand % 2 = 1 →
      2 * (d.significand * (den * 2 ^ d.exponent)) < 2 * num + den * 2 ^ d.exponent ∧
        2 * num < 2 * (d.significand * (den * 2 ^ d.exponent)) + den * 2 ^ d.exponent) :
    ofSteps? d.negative num den = some d := by
  have hgrid : 0 < den * 2 ^ d.exponent := Nat.mul_pos hden (Nat.two_pow_pos _)
  have hlast : num < 2 ^ (53 + d.exponent) * den := by
    have hsignificand := Nat.mul_le_mul_right (den * 2 ^ d.exponent)
      (show d.significand + 1 ≤ 2 ^ 53 from d.significand_lt)
    have hpow : 2 ^ (53 + d.exponent) * den = 2 ^ 53 * (den * 2 ^ d.exponent) := by
      ring
    rw [Nat.add_one_mul] at hsignificand
    omega
  have hexponent := exponentFor_eq hden hfirst hlast
  have hround := roundHalfEven_eq hgrid hlower hupper hodd
  simp only [ofSteps?, hexponent]
  exact hround ▸ ofParts?_self d

/-- Right below a power of two a quotient has one bit less and is rounded on a finer grid. -/
theorem ofSteps?_of_fine {exponent : Nat} (hden : 0 < den)
    (hsignificand : d.significand = 0x10000000000000) (hexponent : d.exponent = exponent + 1)
    (hlower : 2 ^ 54 * (den * 2 ^ exponent) ≤ 2 * num + den * 2 ^ exponent)
    (hupper : num < 2 ^ 53 * (den * 2 ^ exponent)) :
    ofSteps? d.negative num den = some d := by
  have hgrid : 0 < den * 2 ^ exponent := Nat.mul_pos hden (Nat.two_pow_pos _)
  have hfirst : 2 ^ (52 + exponent) * den = 2 ^ 52 * (den * 2 ^ exponent) := by
    ring
  have hlast : 2 ^ (53 + exponent) * den = 2 ^ 53 * (den * 2 ^ exponent) := by
    ring
  have hfor := exponentFor_eq hden (.inr (by omega : 2 ^ (52 + exponent) * den ≤ num))
    (by omega : num < 2 ^ (53 + exponent) * den)
  have hround : roundHalfEven num (den * 2 ^ exponent) = 2 ^ 53 :=
    roundHalfEven_eq hgrid (by omega) (by omega) (by omega)
  simp only [ofSteps?, hfor]
  exact hround ▸ ofParts?_halved hsignificand hexponent

/-- **A number near a double rounds to it**: one that lies no further below it than half the gap
there and no further above it than half the gap there, and closer than that if the significand is
odd. -/
theorem ofSteps?_of_near (hden : 0 < den)
    (hlower : 4 * (d.significand * (den * 2 ^ d.exponent)) ≤
      4 * num + d.gapBelow * (den * 2 ^ d.exponent))
    (hupper : 4 * num ≤ 4 * (d.significand * (den * 2 ^ d.exponent)) + 2 * (den * 2 ^ d.exponent))
    (hodd : d.significand % 2 = 1 →
      4 * (d.significand * (den * 2 ^ d.exponent)) <
          4 * num + d.gapBelow * (den * 2 ^ d.exponent) ∧
        4 * num < 4 * (d.significand * (den * 2 ^ d.exponent)) + 2 * (den * 2 ^ d.exponent)) :
    ofSteps? d.negative num den = some d := by
  have hgap : d.gapBelow ≤ 2 := by
    unfold gapBelow
    split_ifs <;> decide
  have hgapMul := Nat.mul_le_mul_right (den * 2 ^ d.exponent) hgap
  by_cases hfirst : d.exponent = 0 ∨ 2 ^ (52 + d.exponent) * den ≤ num
  · exact ofSteps?_of_coarse hden hfirst (by omega) (by omega) (fun h => by have := hodd h; omega)
  · rw [not_or, Nat.not_le] at hfirst
    obtain ⟨hexponent, hsmall⟩ := hfirst
    obtain ⟨exponent, hexponent⟩ := Nat.exists_eq_add_one_of_ne_zero hexponent
    have hfirst : 2 ^ (52 + d.exponent) * den = 2 ^ 52 * (den * 2 ^ d.exponent) := by
      ring
    have hsignificand : d.significand = 0x10000000000000 := by
      have hnormal := d.normal.resolve_left (by omega)
      by_contra hne
      have hge := Nat.mul_le_mul_right (den * 2 ^ d.exponent)
        (show 2 ^ 52 + 1 ≤ d.significand by omega)
      rw [Nat.add_one_mul] at hge
      omega
    have hgapBelow : d.gapBelow = 1 := if_pos ⟨hsignificand, by omega⟩
    have hdouble : den * 2 ^ d.exponent = 2 * (den * 2 ^ exponent) := by
      rw [hexponent]
      ring
    rw [hgapBelow, hsignificand, hdouble] at hlower
    rw [hdouble] at hfirst
    exact ofSteps?_of_fine hden hsignificand hexponent (by omega) (by omega)

end AuctionLog.Double
