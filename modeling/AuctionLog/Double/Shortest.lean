import AuctionLog.Double.Basic

namespace AuctionLog.Double

structure Decimal where
  digits : Nat
  power : Int
deriving DecidableEq

/-- Every grid of at most 17 digits around a double has whole spacing once scaled by this. -/
def scale : Nat := Nat.pow 10 341

/-- The ends of the interval of numbers that round to a double, scaled by `4 * unit * scale`, and
whether the ends belong to it: an even significand takes the ties. -/
structure Interval where
  lower : Nat
  upper : Nat
  closed : Bool

/-- Below a power of two the neighbouring doubles are half as far apart as above it. -/
def interval (d : Double) : Interval :=
  let below := if d.significand = 0x10000000000000 ∧ 0 < d.exponent then 1 else 2
  { lower := (4 * d.significand - below) * Nat.pow 2 d.exponent * scale
    upper := (4 * d.significand + 2) * Nat.pow 2 d.exponent * scale
    closed := d.significand % 2 == 0 }

def Interval.contains (i : Interval) (scaled : Nat) : Bool :=
  if i.closed then i.lower ≤ scaled && scaled ≤ i.upper
  else i.lower < scaled && scaled < i.upper

def leadingPower (d : Double) : Int :=
  (Nat.toDigits 10 (d.steps * scale / unit)).length - 1 - 341

/-- The point nearest to the double on the grid of multiples of `10 ^ power`, of the two around it
that lie in the interval; a tie goes to the even multiple. -/
def onGrid? (d : Double) (power : Int) : Option Nat :=
  let spacing := 4 * unit * Nat.pow 10 (power + 341).toNat
  let value := 4 * d.steps * scale
  let below := value / spacing
  let above := below + 1
  match d.interval.contains (below * spacing), d.interval.contains (above * spacing) with
  | false, false => none
  | true, false => some below
  | false, true => some above
  | true, true =>
      let toBelow := value - below * spacing
      let toAbove := above * spacing - value
      if toBelow < toAbove then some below
      else if toAbove < toBelow then some above
      else if below % 2 = 0 then some below
      else some above

/-- The first grid with a point in the interval, from `count` digits upwards; a leading nine may
have been rounded up to ten. -/
def shortestFrom (d : Double) (lead : Int) : (tries count : Nat) → Decimal
  | 0, _ => ⟨d.steps * scale / unit, -341⟩
  | tries + 1, count =>
      let power := lead + 1 - count
      match d.onGrid? power with
      | some digits => if digits % 10 = 0 then ⟨digits / 10, power + 1⟩ else ⟨digits, power⟩
      | none => shortestFrom d lead tries (count + 1)

/-- The decimal of fewest digits that reads back as the double, and of those the nearest. -/
def shortest (d : Double) : Decimal :=
  if d.isZero then ⟨0, 0⟩ else shortestFrom d d.leadingPower 17 1

end AuctionLog.Double
