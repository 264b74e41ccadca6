import AuctionLog.Double.Shortest
import AuctionLog.Proofs.Double.Rounding
import AuctionLog.Proofs.Text.Digits

/-!
# What the shortest decimal stands for

A decimal stands for the double that is nearest to it, and so for any double in whose interval it
lies. The search for the shortest one takes nothing that lies outside, and where the search ends
without a hit the decimal it falls back on is so close that it lies inside as well. So it need not
be known that seventeen digits are always enough.
-/

namespace AuctionLog.Double

/-- The double nearest to `digits * 10 ^ power`, or nothing when that is beyond the greatest double.

A number of 310 digits before the point is beyond, and one that starts 330 places after the point
is nearer to zero than to the least double, so the powers of ten below stay small. -/
def ofDecimal? (negative : Bool) (digits : Nat) (power : Int) : Option Double :=
  if digits = 0 then some (zero negative)
  else
    let length : Int := (Nat.toDigits 10 digits).length
    if 310 < length + power then none
    else if length + power < -330 then some (zero negative)
    else if 0 ≤ power then ofSteps? negative (digits * Nat.pow 10 power.toNat * unit) 1
    else ofSteps? negative (digits * unit) (Nat.pow 10 (-power).toNat)

theorem unit_pos : 0 < unit := by
  unfold unit
  exact Nat.two_pow_pos _

theorem scale_pos : 0 < scale := by
  unfold scale
  exact Nat.pow_pos (Nat.succ_pos 9)

theorem Interval.bounds_of_contains {i : Interval} {scaled : Nat} (hcontains : i.contains scaled) :
    i.lower ≤ scaled ∧ scaled ≤ i.upper ∧
      (i.closed = false → i.lower < scaled ∧ scaled < i.upper) := by
  unfold contains at hcontains
  split_ifs at hcontains with hclosed
  · simp only [Bool.and_eq_true, decide_eq_true_eq] at hcontains
    simp [hcontains, hclosed]
  · simp only [Bool.and_eq_true, decide_eq_true_eq] at hcontains
    exact ⟨hcontains.1.le, hcontains.2.le, fun _ => hcontains⟩

theorem Interval.contains_of_between {i : Interval} {scaled : Nat} (hlower : i.lower < scaled)
    (hupper : scaled < i.upper) : i.contains scaled := by
  unfold contains
  split_ifs <;> simp [hlower, hupper, hlower.le, hupper.le]

variable {d : Double} {num den scaled : Nat}

theorem lower_eq (d : Double) :
    d.interval.lower = (4 * d.significand - d.gapBelow) * 2 ^ d.exponent * scale := rfl

theorem upper_eq (d : Double) :
    d.interval.upper = (4 * d.significand + 2) * 2 ^ d.exponent * scale := rfl

theorem gapBelow_le_two (d : Double) : d.gapBelow ≤ 2 := by
  unfold gapBelow
  split_ifs <;> decide

theorem two_mul_scale_le_lower (hd : d.significand ≠ 0) : 2 * scale ≤ d.interval.lower := by
  have hgap := d.gapBelow_le_two
  have hpow : 1 ≤ 2 ^ d.exponent := Nat.one_le_two_pow
  have hquarters : 2 ≤ 4 * d.significand - d.gapBelow := by
    omega
  rw [lower_eq]
  exact Nat.mul_le_mul_right scale (Nat.mul_le_mul hquarters hpow)

theorem upper_le (d : Double) : d.interval.upper ≤ 2 ^ 2100 * scale := by
  have hsignificand := d.significand_lt
  have hpow : 2 ^ d.exponent ≤ 2 ^ 2045 := Nat.pow_le_pow_right (by decide) d.exponent_le
  have hquarters : 4 * d.significand + 2 ≤ 2 ^ 55 := by
    omega
  rw [upper_eq, show (2100 : Nat) = 55 + 2045 from rfl, Nat.pow_add]
  exact Nat.mul_le_mul_right scale (Nat.mul_le_mul hquarters hpow)

theorem ofSteps?_of_contains (hden : 0 < den) (hscaled : scaled * den = 4 * num * scale)
    (hcontains : d.interval.contains scaled) : ofSteps? d.negative num den = some d := by
  obtain ⟨hlower, hupper, hstrict⟩ := Interval.bounds_of_contains hcontains
  have hlowerDen : d.interval.lower * den =
      (4 * d.significand - d.gapBelow) * (den * 2 ^ d.exponent) * scale := by
    rw [lower_eq]
    ring
  have hupperDen : d.interval.upper * den =
      (4 * d.significand + 2) * (den * 2 ^ d.exponent) * scale := by
    rw [upper_eq]
    ring
  have hquarters := Nat.mul_le_mul_right (den * 2 ^ d.exponent)
    (show 4 * d.significand ≤ 4 * d.significand - d.gapBelow + d.gapBelow by omega)
  rw [Nat.add_mul, Nat.mul_assoc] at hquarters
  have hends : 4 * (d.significand * (den * 2 ^ d.exponent)) + 2 * (den * 2 ^ d.exponent) =
      (4 * d.significand + 2) * (den * 2 ^ d.exponent) := by
    ring
  refine ofSteps?_of_near hden ?_ ?_ fun hodd => ?_
  · have hle := Nat.mul_le_mul_right den hlower
    rw [hlowerDen, hscaled] at hle
    have := Nat.le_of_mul_le_mul_right hle scale_pos
    omega
  · have hle := Nat.mul_le_mul_right den hupper
    rw [hupperDen, hscaled] at hle
    have := Nat.le_of_mul_le_mul_right hle scale_pos
    omega
  · have hopen : d.interval.closed = false := beq_false_of_ne (by omega)
    have hltLower := Nat.mul_lt_mul_of_pos_right (hstrict hopen).1 hden
    have hltUpper := Nat.mul_lt_mul_of_pos_right (hstrict hopen).2 hden
    rw [hlowerDen, hscaled] at hltLower
    rw [hupperDen, hscaled] at hltUpper
    have := Nat.lt_of_mul_lt_mul_right hltLower
    have := Nat.lt_of_mul_lt_mul_right hltUpper
    omega

theorem scale_eq {left right : Nat} (hsum : 341 = left + right) :
    scale = 10 ^ left * 10 ^ right := by
  rw [scale, Nat.pow_eq, hsum, Nat.pow_add]

/-- A decimal, scaled as intervals are. -/
def scaledOf (digits : Nat) (power : Int) : Nat :=
  digits * (4 * unit * 10 ^ (power + 341).toNat)

theorem length_add_power_le {digits : Nat} {power : Int} (hpower : -341 ≤ power)
    (hdigits : digits ≠ 0) (hcontains : d.interval.contains (scaledOf digits power)) :
    (Nat.toDigits 10 digits).length + power ≤ 310 := by
  by_contra hlong
  have hupper := (Interval.bounds_of_contains hcontains).2.1.trans d.upper_le
  have hpos : 0 < (Nat.toDigits 10 digits).length := Nat.length_toDigits_pos
  have hproduct : 10 ^ 651 ≤ digits * 10 ^ (power + 341).toNat := by
    calc 10 ^ 651
        ≤ 10 ^ ((Nat.toDigits 10 digits).length - 1 + (power + 341).toNat) :=
          Nat.pow_le_pow_right (by decide) (by omega)
      _ = 10 ^ ((Nat.toDigits 10 digits).length - 1) * 10 ^ (power + 341).toNat := Nat.pow_add ..
      _ ≤ digits * 10 ^ (power + 341).toNat :=
          Nat.mul_le_mul_right _ (Digits.ten_pow_length_le hdigits)
  have hscaled : 4 * unit * 10 ^ 651 ≤ scaledOf digits power := by
    calc 4 * unit * 10 ^ 651
        ≤ 4 * unit * (digits * 10 ^ (power + 341).toNat) := Nat.mul_le_mul_left _ hproduct
      _ = scaledOf digits power := by
          unfold scaledOf
          ring
  have hclosed : 2 ^ 2100 * scale < 4 * unit * 10 ^ 651 := by
    decide +kernel
  exact absurd (hscaled.trans hupper) (Nat.not_le.mpr hclosed)

/-- A decimal in the interval of a double other than zero starts at most 330 places after the
point. -/
theorem le_length_add_power {digits : Nat} {power : Int} (hpower : -341 ≤ power)
    (hd : d.significand ≠ 0) (hcontains : d.interval.contains (scaledOf digits power)) :
    -330 ≤ (Nat.toDigits 10 digits).length + power := by
  by_contra hshort
  have hlower := (two_mul_scale_le_lower hd).trans (Interval.bounds_of_contains hcontains).1
  have hproduct : digits * 10 ^ (power + 341).toNat ≤ 10 ^ 10 := by
    calc digits * 10 ^ (power + 341).toNat
        ≤ 10 ^ (Nat.toDigits 10 digits).length * 10 ^ (power + 341).toNat :=
          Nat.mul_le_mul_right _ (Digits.lt_ten_pow_length digits).le
      _ = 10 ^ ((Nat.toDigits 10 digits).length + (power + 341).toNat) := (Nat.pow_add ..).symm
      _ ≤ 10 ^ 10 := Nat.pow_le_pow_right (by decide) (by omega)
  have hscaled : scaledOf digits power ≤ 4 * unit * 10 ^ 10 := by
    calc scaledOf digits power
        = 4 * unit * (digits * 10 ^ (power + 341).toNat) := by
          unfold scaledOf
          ring
      _ ≤ 4 * unit * 10 ^ 10 := Nat.mul_le_mul_left _ hproduct
  have hclosed : 4 * unit * 10 ^ 10 < 2 * scale := by
    decide +kernel
  exact absurd (hlower.trans hscaled) (Nat.not_le.mpr hclosed)

theorem digits_ne_zero_of_contains {digits : Nat} {power : Int} (hd : d.significand ≠ 0)
    (hcontains : d.interval.contains (scaledOf digits power)) : digits ≠ 0 := by
  rintro rfl
  have hlower := (two_mul_scale_le_lower hd).trans (Interval.bounds_of_contains hcontains).1
  have := scale_pos
  simp only [scaledOf, Nat.zero_mul] at hlower
  omega

/-- **A decimal in the interval of a double stands for the double.** -/
theorem ofDecimal?_of_contains {digits : Nat} {power : Int} (hpower : -341 ≤ power)
    (hd : d.significand ≠ 0) (hcontains : d.interval.contains (scaledOf digits power)) :
    ofDecimal? d.negative digits power = some d := by
  have hdigits := digits_ne_zero_of_contains hd hcontains
  have hlong := length_add_power_le hpower hdigits hcontains
  have hshort := le_length_add_power hpower hd hcontains
  unfold ofDecimal?
  simp only [hdigits, if_false, Int.not_lt.mpr hlong, Int.not_lt.mpr hshort]
  split_ifs with hwhole
  · refine ofSteps?_of_contains Nat.one_pos ?_ hcontains
    have hsum : (power + 341).toNat = power.toNat + 341 := by
      omega
    rw [scaledOf, hsum, Nat.pow_add, Nat.pow_eq, scale, Nat.pow_eq]
    ring
  · refine ofSteps?_of_contains (Nat.pow_pos (by decide)) ?_ hcontains
    have hsum : (power + 341).toNat + (-power).toNat = 341 := by
      omega
    rw [scaledOf, scale_eq hsum.symm, Nat.pow_eq]
    ring

theorem contains_of_onGrid? {power : Int} {digits : Nat} (hgrid : d.onGrid? power = some digits) :
    d.interval.contains (scaledOf digits power) := by
  unfold onGrid? at hgrid
  simp only at hgrid
  split at hgrid
  · simp at hgrid
  · rename_i hbelow _
    obtain rfl := Option.some.inj hgrid
    exact hbelow
  · rename_i _ habove
    obtain rfl := Option.some.inj hgrid
    exact habove
  · rename_i hbelow habove
    split_ifs at hgrid <;> obtain rfl := Option.some.inj hgrid
    · exact hbelow
    · exact habove
    · exact hbelow
    · exact habove

/-- What the search falls back on lies in the interval: it is less than one part in `scale` away. -/
theorem contains_fallback (hd : d.significand ≠ 0) :
    d.interval.contains (scaledOf (d.steps * scale / unit) (-341)) := by
  have hsplit := Nat.div_add_mod' (d.steps * scale) unit
  have hmod := Nat.mod_lt (d.steps * scale) unit_pos
  have hscaled : scaledOf (d.steps * scale / unit) (-341) =
      4 * (d.steps * scale / unit * unit) := by
    rw [scaledOf, show ((-341 : Int) + 341).toNat = 0 from rfl, Nat.pow_zero]
    ring
  have hgrid : 4 * unit < 2 ^ d.exponent * scale := by
    calc 4 * unit
        < scale := by decide +kernel
      _ ≤ 2 ^ d.exponent * scale := Nat.le_mul_of_pos_left _ (Nat.two_pow_pos _)
  have hsteps : d.steps * scale = d.significand * (2 ^ d.exponent * scale) := by
    rw [steps, Nat.mul_assoc, Nat.pow_eq]
  have hlower : d.interval.lower + 2 ^ d.exponent * scale ≤ 4 * (d.steps * scale) := by
    have hgap : 1 ≤ d.gapBelow := by
      unfold gapBelow
      split_ifs <;> decide
    have hquarters := Nat.mul_le_mul_right (2 ^ d.exponent * scale)
      (show 4 * d.significand - d.gapBelow + 1 ≤ 4 * d.significand by omega)
    rw [lower_eq, hsteps, Nat.mul_assoc]
    rw [Nat.add_one_mul, Nat.mul_assoc 4] at hquarters
    exact hquarters
  have hupper : d.interval.upper = 4 * (d.steps * scale) + 2 * (2 ^ d.exponent * scale) := by
    rw [upper_eq, hsteps]
    ring
  refine Interval.contains_of_between ?_ ?_ <;> rw [hscaled]
  · omega
  · omega

/-- A grid of at most 17 digits is no finer than intervals are scaled for. -/
theorem le_leadingPower (hd : d.significand ≠ 0) : -324 ≤ d.leadingPower := by
  have hsteps : 1 ≤ d.steps := Nat.mul_pos (Nat.pos_of_ne_zero hd) (Nat.two_pow_pos _)
  have hsize : 10 ^ 17 ≤ d.steps * scale / unit := by
    rw [Nat.le_div_iff_mul_le unit_pos]
    calc 10 ^ 17 * unit
        ≤ scale := by decide +kernel
      _ ≤ d.steps * scale := Nat.le_mul_of_pos_left _ hsteps
  have hlength : 17 < (Nat.toDigits 10 (d.steps * scale / unit)).length := by
    by_contra hshort
    have := (Nat.length_toDigits_le_iff (by decide) (by decide)).mp (Nat.le_of_not_lt hshort)
    omega
  unfold leadingPower
  omega

theorem scaledOf_div_ten {digits : Nat} {power : Int} (hpower : -341 ≤ power)
    (hten : digits % 10 = 0) : scaledOf (digits / 10) (power + 1) = scaledOf digits power := by
  have hdigits : digits = digits / 10 * 10 := by
    omega
  have hnext : (power + 1 + 341).toNat = (power + 341).toNat + 1 := by
    omega
  rw [scaledOf, scaledOf, hnext, Nat.pow_succ]
  nth_rewrite 2 [hdigits]
  ring

theorem shortestFrom_contains (hd : d.significand ≠ 0) {lead : Int} (tries count : Nat)
    (hlead : -324 ≤ lead) (hcount : tries + count ≤ 18) :
    -341 ≤ (d.shortestFrom lead tries count).power ∧
      d.interval.contains (scaledOf (d.shortestFrom lead tries count).digits
        (d.shortestFrom lead tries count).power) := by
  induction tries generalizing count with
  | zero => exact ⟨Int.le_refl _, contains_fallback hd⟩
  | succ tries ih =>
      have hpower : -341 ≤ lead + 1 - count := by
        omega
      rw [shortestFrom]
      cases hgrid : d.onGrid? (lead + 1 - count) with
      | none => simpa [hgrid] using ih (count + 1) (by omega)
      | some digits =>
          have hcontains := contains_of_onGrid? hgrid
          by_cases hten : digits % 10 = 0
          · simp only [hten, if_true]
            exact ⟨by omega, (scaledOf_div_ten hpower hten).symm ▸ hcontains⟩
          · simp only [hten, if_false]
            exact ⟨hpower, hcontains⟩

theorem shortest_contains (hd : d.significand ≠ 0) :
    -341 ≤ d.shortest.power ∧
      d.interval.contains (scaledOf d.shortest.digits d.shortest.power) := by
  have hzero : d.isZero = false := beq_false_of_ne hd
  have hfrom := shortestFrom_contains hd 17 1 (le_leadingPower hd) (by decide)
  simpa [shortest, hzero] using hfrom

theorem eq_zero_of_significand_eq_zero (hd : d.significand = 0) : d = zero d.negative := by
  obtain ⟨negative, significand, exponent, hlt, hnormal, hle⟩ := d
  obtain rfl : significand = 0 := hd
  obtain rfl : exponent = 0 := hnormal.resolve_right (by decide)
  rfl

end AuctionLog.Double
