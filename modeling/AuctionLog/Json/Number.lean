import AuctionLog.Double.Shortest

namespace AuctionLog.Json

/-- A JSON number: a whole number that 64 bits hold with or without a sign, or a double. -/
inductive Number where
  | int (value : Int) (lower : -0x8000000000000000 ≤ value) (upper : value < 0x10000000000000000)
  | double (value : Double)
deriving DecidableEq

namespace Number

def ofInt64 (value : Int64) : Number :=
  .int value.toInt value.le_toInt (Int.lt_trans value.toInt_lt (by decide))

def ofUInt64 (value : UInt64) : Number :=
  .int value.toNat (by omega) (Int.ofNat_lt.2 value.toNat_lt)

def ofInt32 (value : Int32) : Number :=
  .int value.toInt (Int.le_trans (by decide) value.le_toInt)
    (Int.lt_trans value.toInt_lt (by decide))

def intText (value : Int) : List Char :=
  if value < 0 then '-' :: Nat.toDigits 10 value.natAbs else Nat.toDigits 10 value.natAbs

def scientificText (digits : List Char) (lead : Int) : List Char :=
  let sign := if lead < 0 then '-' else '+'
  let fraction := match digits.drop 1 with
    | [] => []
    | rest => '.' :: rest
  digits.take 1 ++ fraction ++ 'e' :: sign :: Nat.toDigits 10 lead.natAbs

/-- Positional notation keeps at least one digit on either side of the point. -/
def positionalText (digits : List Char) (power lead : Int) : List Char :=
  if 0 ≤ power then digits ++ List.replicate power.toNat '0' ++ ['.', '0']
  else if 0 ≤ lead then digits.take (lead + 1).toNat ++ '.' :: digits.drop (lead + 1).toNat
  else '0' :: '.' :: List.replicate (-lead - 1).toNat '0' ++ digits

/-- Positional where the leading digit stands for `10 ^ -5` to `10 ^ 15`, scientific elsewhere. -/
def decimalText (decimal : Double.Decimal) : List Char :=
  let digits := Nat.toDigits 10 decimal.digits
  let lead := digits.length - 1 + decimal.power
  if lead < -5 ∨ 15 < lead then scientificText digits lead
  else positionalText digits decimal.power lead

def text : Number → List Char
  | .int value _ _ => intText value
  | .double value =>
      if value.negative then '-' :: decimalText value.shortest else decimalText value.shortest

end Number

end AuctionLog.Json
