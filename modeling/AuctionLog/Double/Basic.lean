namespace AuctionLog

/-- A finite binary double: `significand * 2 ^ exponent` steps of `2 ^ -1074`, with a sign. A
significand has 53 bits, the first of them set unless the exponent is the least one. -/
structure Double where
  negative : Bool
  significand : Nat
  exponent : Nat
  significand_lt : significand < 0x20000000000000
  normal : exponent = 0 ∨ 0x10000000000000 ≤ significand
  exponent_le : exponent ≤ 2045
deriving DecidableEq

namespace Double

/-- The least positive double is `1 / unit`. -/
def unit : Nat := Nat.pow 2 1074

def steps (d : Double) : Nat :=
  d.significand * Nat.pow 2 d.exponent

def zero (negative : Bool) : Double :=
  ⟨negative, 0, 0, by decide, .inl rfl, by decide⟩

def isZero (d : Double) : Bool :=
  d.significand == 0

/-- The whole number next to `num / den`, a tie going to the even one. -/
def roundHalfEven (num den : Nat) : Nat :=
  let quotient := num / den
  let twice := 2 * (num % den)
  if twice < den then quotient
  else if den < twice then quotient + 1
  else quotient + quotient % 2

/-- The double of the given parts, where a significand rounded up to 54 bits is halved. -/
def ofParts? (negative : Bool) (significand exponent : Nat) : Option Double :=
  let (significand, exponent) :=
    if significand = 0x20000000000000 then (0x10000000000000, exponent + 1)
    else (significand, exponent)
  if h : significand < 0x20000000000000 ∧ (exponent = 0 ∨ 0x10000000000000 ≤ significand) ∧
      exponent ≤ 2045 then
    some ⟨negative, significand, exponent, h.1, h.2.1, h.2.2⟩
  else none

/-- The exponent at which a quotient keeps 53 significant bits, or the least exponent. -/
def exponentFor (num den : Nat) : Nat :=
  let whole := num / den
  if whole < 0x20000000000000 then 0 else whole.log2 - 52

/-- The double nearest to `num / den` steps, a tie going to the even significand, or nothing when
that is beyond the greatest double. -/
def ofSteps? (negative : Bool) (num den : Nat) : Option Double :=
  let exponent := exponentFor num den
  ofParts? negative (roundHalfEven num (den * Nat.pow 2 exponent)) exponent

def ofNat? (negative : Bool) (value : Nat) : Option Double :=
  ofSteps? negative (value * unit) 1

/-- The double nearest to a product, or nothing when that is beyond the greatest double. -/
def mul? (left right : Double) : Option Double :=
  ofSteps? (left.negative != right.negative) (left.steps * right.steps) unit

/-- The double nearest to a quotient, or nothing when that is beyond the greatest double. -/
def div? (left right : Double) : Option Double :=
  ofSteps? (left.negative != right.negative) (left.steps * unit) right.steps

def whole? (d : Double) : Option Int :=
  if unit ∣ d.steps then
    let size : Int := (d.steps / unit : Nat)
    some (if d.negative then -size else size)
  else none

end Double

end AuctionLog
