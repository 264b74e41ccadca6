import AuctionLog.Double.Scientific
import AuctionLog.Proofs.Double.Shortest

/-!
# Decimals that are read as what they stand for

The reader of decimals rounds twice, first the significand and then its product with a power of ten.
Where both of these are doubles as they are, only the second rounding is left, and a decimal is read
as the double that it stands for.
-/

namespace AuctionLog.Double

variable {d left right : Double} {negative : Bool} {num den : Nat}

/-! ## Quotients in other terms -/

section Terms

variable {factor : Nat} (hfactor : 0 < factor)

include hfactor

theorem roundHalfEven_mul_right (num den : Nat) :
    roundHalfEven (num * factor) (den * factor) = roundHalfEven num den := by
  have hless : 2 * (num % den * factor) < den * factor ↔ 2 * (num % den) < den := by
    rw [← Nat.mul_assoc, Nat.mul_lt_mul_right hfactor]
  have hmore : den * factor < 2 * (num % den * factor) ↔ den < 2 * (num % den) := by
    rw [← Nat.mul_assoc, Nat.mul_lt_mul_right hfactor]
  simp only [roundHalfEven, Nat.mul_div_mul_right _ _ hfactor, Nat.mul_mod_mul_right, hless, hmore]

/-- The terms of a quotient do not matter to what it is rounded to. -/
theorem ofSteps?_mul_right (num den : Nat) :
    ofSteps? negative (num * factor) (den * factor) = ofSteps? negative num den := by
  have hgrid : ∀ exponent, den * factor * Nat.pow 2 exponent =
      den * Nat.pow 2 exponent * factor := fun exponent => Nat.mul_right_comm ..
  simp only [ofSteps?, exponentFor, Nat.mul_div_mul_right _ _ hfactor, hgrid,
    roundHalfEven_mul_right hfactor]

end Terms

theorem ofSteps?_zero (negative : Bool) (den : Nat) :
    ofSteps? negative 0 den = some (zero negative) := by
  simp [ofSteps?, exponentFor, roundHalfEven, ofParts?, zero]

/-! ## Numbers that are doubles as they are -/

/-- **A double is the one nearest to itself.** -/
theorem ofSteps?_steps (d : Double) : ofSteps? d.negative d.steps 1 = some d := by
  have hpow : 0 < 2 ^ d.exponent := Nat.two_pow_pos _
  have hgap : 0 < d.gapBelow := by
    unfold gapBelow
    split_ifs <;> decide
  have hbelow : 0 < d.gapBelow * (1 * 2 ^ d.exponent) := by
    rw [Nat.one_mul]
    exact Nat.mul_pos hgap hpow
  have hsteps : d.steps = d.significand * (1 * 2 ^ d.exponent) := by
    rw [steps, Nat.one_mul]
    rfl
  rw [hsteps]
  refine ofSteps?_of_near Nat.one_pos ?_ ?_ fun _ => ⟨?_, ?_⟩ <;> omega

/-- A whole number of 53 bits is a double, also with zero bits behind it. -/
theorem exists_ofNat? {bits shift : Nat} (hbits : bits < 2 ^ 53) (hshift : shift ≤ 900)
    (negative : Bool) :
    ∃ d, ofNat? negative (bits * 2 ^ shift) = some d ∧ d.negative = negative ∧
      d.steps = bits * 2 ^ shift * unit := by
  rcases Nat.eq_zero_or_pos bits with rfl | hpos
  · refine ⟨zero negative, ?_, rfl, ?_⟩
    · rw [ofNat?, Nat.zero_mul, Nat.zero_mul, ofSteps?_zero]
    · simp [steps, zero]
  · have hlog : bits.log2 ≤ 52 := Nat.lt_succ_iff.mp ((Nat.log2_lt hpos.ne').mpr hbits)
    have hlower := Nat.log2_self_le hpos.ne'
    have hupper := @Nat.lt_log2_self bits
    -- The first bit is moved to the front of the significand.
    have hsplit : ∀ power, 2 ^ (power + (52 - bits.log2)) = 2 ^ power * 2 ^ (52 - bits.log2) :=
      fun power => Nat.pow_add ..
    have hfirst : 2 ^ 52 ≤ bits * 2 ^ (52 - bits.log2) := by
      have hpow := hsplit bits.log2
      rw [Nat.add_sub_cancel' hlog] at hpow
      rw [hpow]
      exact Nat.mul_le_mul_right _ hlower
    have hlast : bits * 2 ^ (52 - bits.log2) < 2 ^ 53 := by
      have hpow := hsplit (bits.log2 + 1)
      rw [show bits.log2 + 1 + (52 - bits.log2) = 53 by omega] at hpow
      rw [hpow]
      exact Nat.mul_lt_mul_of_pos_right hupper (Nat.two_pow_pos _)
    let d : Double :=
      ⟨negative, bits * 2 ^ (52 - bits.log2), 1022 + bits.log2 + shift, hlast, .inr hfirst,
        by omega⟩
    have hsteps : d.steps = bits * 2 ^ shift * unit := by
      have hexponent : 52 - bits.log2 + (1022 + bits.log2 + shift) = shift + 1074 := by
        omega
      calc d.steps
          = bits * (2 ^ (52 - bits.log2) * 2 ^ (1022 + bits.log2 + shift)) := Nat.mul_assoc ..
        _ = bits * 2 ^ (shift + 1074) := by rw [← Nat.pow_add, hexponent]
        _ = bits * 2 ^ shift * unit := by rw [Nat.pow_add, ← Nat.mul_assoc]; rfl
    refine ⟨d, ?_, rfl, hsteps⟩
    rw [ofNat?, ← hsteps]
    exact ofSteps?_steps d

/-- The powers of ten that are doubles as they are. -/
theorem exists_tenTo? {places : Nat} (hplaces : places ≤ 22) :
    ∃ d, tenTo? places = some d ∧ d.negative = false ∧ d.steps = 10 ^ places * unit := by
  have hfive : 5 ^ places < 2 ^ 53 :=
    (Nat.pow_le_pow_right (by decide) hplaces).trans_lt (by decide)
  have hten : 10 ^ places = 5 ^ places * 2 ^ places := Nat.mul_pow 5 2 places
  obtain ⟨d, hd, hsign, hsteps⟩ := exists_ofNat? hfive (hplaces.trans (by decide)) false
  rw [← hten] at hd hsteps
  exact ⟨d, hd, hsign, hsteps⟩

/-! ## Products and quotients -/

theorem mul?_eq {factor : Nat} (hleft : left.steps = num * unit)
    (hright : right.steps = factor * unit) (hpositive : right.negative = false) :
    left.mul? right = ofSteps? left.negative (num * factor * unit) 1 := by
  have hnum : num * unit * (factor * unit) = num * factor * unit * unit := by
    ring
  have hscale := @ofSteps?_mul_right left.negative _ unit_pos (num * factor * unit) 1
  rw [Nat.one_mul] at hscale
  rw [mul?, hleft, hright, hpositive, Bool.bne_false, hnum, hscale]

theorem div?_eq {divisor : Nat} (hleft : left.steps = num * unit)
    (hright : right.steps = divisor * unit) (hpositive : right.negative = false) :
    left.div? right = ofSteps? left.negative (num * unit) divisor := by
  rw [div?, hleft, hright, hpositive, Bool.bne_false, ofSteps?_mul_right unit_pos]

theorem ofDecimal?_eq {digits : Nat} {power : Int} (hdigits : digits < 2 ^ 53)
    (hpower : power.natAbs ≤ 22) :
    ofDecimal? negative digits power =
      if 0 ≤ power then ofSteps? negative (digits * 10 ^ power.toNat * unit) 1
      else ofSteps? negative (digits * unit) (10 ^ (-power).toNat) := by
  have hlength : (Nat.toDigits 10 digits).length ≤ 16 :=
    (Nat.length_toDigits_le_iff (by decide) (by decide)).mpr (hdigits.trans (by decide))
  by_cases hzero : digits = 0
  · simp only [hzero, Nat.zero_mul, ofSteps?_zero, ite_self]
    rfl
  · have hgreat : ¬ 310 < ((Nat.toDigits 10 digits).length : Int) + power := by omega
    have hsmall : ¬ ((Nat.toDigits 10 digits).length : Int) + power < -330 := by omega
    simp only [ofDecimal?, hzero, hgreat, hsmall, if_false]
    rfl

theorem raise?_eq {places : Nat} (hvalue : d.steps = num * unit) (hplaces : places ≤ 22) :
    d.raise? places = ofSteps? d.negative (num * 10 ^ places * unit) 1 := by
  obtain ⟨ten, hten, hpositive, hsteps⟩ := exists_tenTo? hplaces
  have hmost : places ≤ mostPlaces := hplaces.trans (by decide)
  rw [raise?, if_pos hmost, hten, Option.bind_some, mul?_eq hvalue hsteps hpositive]

theorem lower?_eq {places : Nat} (hvalue : d.steps = num * unit) (hplaces : places ≤ 22) :
    d.lower? places = ofSteps? d.negative (num * unit) (10 ^ places) := by
  obtain ⟨ten, hten, hpositive, hsteps⟩ := exists_tenTo? hplaces
  have hrounds : (places - 1) / mostPlaces = 0 :=
    Nat.div_eq_of_lt (by unfold mostPlaces; omega)
  rw [lower?, hrounds, lowerBy?, Option.bind_some, Nat.zero_mul, Nat.sub_zero, hten,
    Option.bind_some, div?_eq hvalue hsteps hpositive]

/-- **Decimals of few digits are read as what they stand for**: those of at most 53 bits, with a
power of ten that is a double as it is. -/
theorem ofScientific?_eq_ofDecimal? {digits : Nat} {power : Int} (hdigits : digits < 2 ^ 53)
    (hpower : power.natAbs ≤ 22) :
    ofScientific? negative digits power = ofDecimal? negative digits power := by
  obtain ⟨value, hvalue, rfl, hsteps⟩ := @exists_ofNat? digits 0 hdigits (Nat.zero_le _) negative
  rw [Nat.pow_zero, Nat.mul_one] at hvalue hsteps
  rw [ofDecimal?_eq hdigits hpower, ofScientific?, hvalue, Option.bind_some]
  split_ifs with hsign
  · exact raise?_eq hsteps (by omega)
  · exact lower?_eq hsteps (by omega)

/-- A decimal with more digits may be read as another double than the one it stands for. -/
example : ofScientific? false 10000000000000001 (-14) = ofScientific? false 100 0 ∧
    ofDecimal? false 10000000000000001 (-14) ≠ ofDecimal? false 100 0 := by
  decide +kernel

end AuctionLog.Double
