import AuctionLog.Double.Scientific
import AuctionLog.Json.Fault

namespace AuctionLog.Json.NumberLiteral

def isDigit (byte : UInt8) : Bool :=
  0x30 ≤ byte && byte ≤ 0x39

/-- The number that decimal digits denote, read on from the digits before them. -/
def valueFrom (value : Nat) (digits : List UInt8) : Nat :=
  digits.foldl (fun value byte => value * 10 + (byte.toNat - 0x30)) value

/-- The digits before the point: a zero stands alone. -/
def readWhole : List UInt8 → Reading (List UInt8)
  | [] => stop .endInValue []
  | byte :: rest =>
      if byte = 0x30 then
        match rest with
        | [] => .ok ([byte], [])
        | next :: after =>
            if isDigit next then stop .badNumber after else .ok ([byte], next :: after)
      else if isDigit byte then
        .ok ((byte :: rest).takeWhile isDigit, (byte :: rest).dropWhile isDigit)
      else stop .badNumber rest

def readDigits : List UInt8 → Reading (List UInt8)
  | [] => stop .endInValue []
  | byte :: rest =>
      if isDigit byte then
        .ok ((byte :: rest).takeWhile isDigit, (byte :: rest).dropWhile isDigit)
      else stop .badNumber rest

def readFraction : List UInt8 → Reading (List UInt8)
  | [] => .ok ([], [])
  | byte :: rest => if byte = 0x2E then readDigits rest else .ok ([], byte :: rest)

/-- The value of an exponent. A `bounded` one is too great as soon as it takes more than 31 bits. -/
def readExponentDigits (bounded : Bool) (value : Nat) : List UInt8 → Reading Nat
  | [] => .ok (value, [])
  | byte :: rest =>
      if isDigit byte then
        let value := value * 10 + (byte.toNat - 0x30)
        if bounded && 0x80000000 ≤ value then stop .numberOutOfRange rest
        else readExponentDigits bounded value rest
      else .ok (value, byte :: rest)

/-- An exponent from after its letter. Only of a number other than zero can one be too great. -/
def readExponent (isZero : Bool) (input : List UInt8) : Reading Int :=
  let negative := input.head? == some 0x2D
  let signed := negative || input.head? == some 0x2B
  let input := if signed then input.drop 1 else input
  match input with
  | [] => stop .endInValue []
  | byte :: rest =>
      if isDigit byte then
        match readExponentDigits (!negative && !isZero) 0 (byte :: rest) with
        | .error fault => .error fault
        | .ok (value, rest) => .ok (if negative then -(value : Int) else value, rest)
      else stop .badNumber rest

def readExponent? (isZero : Bool) : List UInt8 → Reading (Option Int)
  | [] => .ok (none, [])
  | byte :: rest =>
      if byte = 0x65 ∨ byte = 0x45 then
        match readExponent isZero rest with
        | .error fault => .error fault
        | .ok (power, rest) => .ok (some power, rest)
      else .ok (none, byte :: rest)

/-- A number from after its sign: the digits before and after its point, and its exponent. -/
structure Parts where
  whole : List UInt8
  fraction : List UInt8
  exponent : Option Int

def readParts (input : List UInt8) : Except Fault (Parts × List UInt8) := do
  let (whole, rest) ← readWhole input
  let (fraction, rest) ← readFraction rest
  let isZero := valueFrom (valueFrom 0 whole) fraction == 0
  let (exponent, rest) ← readExponent? isZero rest
  return (⟨whole, fraction, exponent⟩, rest)

/-- What digits denote, read on from the digits before them for as long as 64 bits hold it, and the
digits that are left. -/
def takeDigits (value : Nat) : List UInt8 → Nat × List UInt8
  | [] => (value, [])
  | byte :: rest =>
      let next := value * 10 + (byte.toNat - 0x30)
      if next < 0x10000000000000000 then takeDigits next rest else (value, byte :: rest)

namespace Parts

/-- The number itself if it is written as a whole one and 64 bits hold it. Minus zero is none
because no whole number is negative and zero. -/
def integer? (negative : Bool) (parts : Parts) : Option Number :=
  let value := valueFrom 0 parts.whole
  if !parts.fraction.isEmpty || parts.exponent.isSome then none
  else if negative then
    if h : 0 < value ∧ value ≤ 0x8000000000000000 then
      some (.int (-(value : Int)) (by omega) (by omega))
    else none
  else if h : value < 0x10000000000000000 then some (.int value (by omega) (by omega))
  else none

/-- The double that a number is read as. Of its digits only those count that fit into 64 bits, and
one left out before the point counts as a zero. -/
def double? (negative : Bool) (parts : Parts) : Option Double :=
  let (value, leftOut) := takeDigits 0 parts.whole
  let (significand, ignored) := takeDigits value parts.fraction
  Double.ofScientific? negative significand
    (parts.exponent.getD 0 + leftOut.length - (parts.fraction.length - ignored.length : Nat))

end Parts

/-- Reads a number from after its sign, which is taken by `double?` for a double if it is not one of
the whole numbers. -/
def readBy (double? : Bool → Parts → Option Double) (negative : Bool) (input : List UInt8) :
    Except Fault (Number × List UInt8) := do
  let (parts, rest) ← readParts input
  match parts.integer? negative <|> (double? negative parts).map .double with
  | some value => .ok (value, rest)
  | none => stop .numberOutOfRange rest

def read : Bool → List UInt8 → Except Fault (Number × List UInt8) :=
  readBy Parts.double?

/-- Passes over one digit or more; their absence is no early end but a bad number. -/
def skipDigits : List UInt8 → Except Fault (List UInt8)
  | [] => stop .badNumber []
  | byte :: rest => if isDigit byte then .ok (rest.dropWhile isDigit) else stop .badNumber rest

def skip (input : List UInt8) : Except Fault (List UInt8) := do
  let rest ← match input with
    | [] => stop .badNumber []
    | byte :: rest =>
        if byte = 0x30 then
          match rest with
          | [] => .ok []
          | next :: after => if isDigit next then stop .badNumber after else .ok (next :: after)
        else skipDigits (byte :: rest)
  let rest ← match rest with
    | [] => .ok []
    | byte :: after => if byte = 0x2E then skipDigits after else .ok (byte :: after)
  match rest with
  | [] => .ok []
  | byte :: after =>
      if byte = 0x65 ∨ byte = 0x45 then
        let signed := after.head? == some 0x2B || after.head? == some 0x2D
        skipDigits (if signed then after.drop 1 else after)
      else .ok (byte :: after)

end AuctionLog.Json.NumberLiteral
