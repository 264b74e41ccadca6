import AuctionLog.Double.Basic

namespace AuctionLog.Double

/-- The places that a point is moved at once, at most: no greater power of ten is a double. -/
def mostPlaces : Nat := 308

def tenTo? (places : Nat) : Option Double :=
  ofNat? false (Nat.pow 10 places)

/-- The value with its point moved to the right. -/
def raise? (value : Double) (places : Nat) : Option Double :=
  if places ≤ mostPlaces then (tenTo? places).bind value.mul?
  else if value.isZero then some value
  else none

/-- The value with its point moved to the left by the most places, so many times or until nothing is
left. -/
def lowerBy? : (rounds : Nat) → (value : Double) → Option Double
  | 0, value => some value
  | rounds + 1, value =>
      if value.isZero then some value
      else (tenTo? mostPlaces).bind fun most => (value.div? most).bind (lowerBy? rounds)

/-- The value with its point moved to the left. -/
def lower? (value : Double) (places : Nat) : Option Double :=
  let rounds := (places - 1) / mostPlaces
  (lowerBy? rounds value).bind fun value =>
    (tenTo? (places - rounds * mostPlaces)).bind value.div?

/-- What `significand * 10 ^ power` is read as, or nothing when it is out of range.

The significand is rounded first, and the result once more with each power of ten. So this need not
be the double nearest to the decimal. -/
def ofScientific? (negative : Bool) (significand : Nat) (power : Int) : Option Double :=
  (ofNat? negative significand).bind fun value =>
    if 0 ≤ power then value.raise? power.toNat else value.lower? (-power).toNat

end AuctionLog.Double
