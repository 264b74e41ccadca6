namespace AuctionLog.Ascii

/-- The text with the letters A to Z in lower case; no other character changes. -/
def fold (text : String) : String :=
  text.map Char.toLower

def upper (text : String) : String :=
  text.map Char.toUpper

/-- Whether two texts agree once the case of ASCII letters is ignored. -/
def sameFold (left right : String) : Bool :=
  fold left == fold right

end AuctionLog.Ascii

namespace AuctionLog.Numeral

/-- The value of a digit in the given base, letters standing for ten and more in either case. -/
def digit? (base : Nat) (char : Char) : Option Nat :=
  let value :=
    if '0' ≤ char ∧ char ≤ '9' then some (char.toNat - '0'.toNat)
    else if 'a' ≤ char ∧ char ≤ 'z' then some (char.toNat - 'a'.toNat + 10)
    else if 'A' ≤ char ∧ char ≤ 'Z' then some (char.toNat - 'A'.toNat + 10)
    else none
  value.filter (· < base)

def digitsFrom? (base value : Nat) : List Char → Option Nat
  | [] => some value
  | char :: rest =>
      match digit? base char with
      | none => none
      | some digit => digitsFrom? base (value * base + digit) rest

def digits? (base : Nat) (text : List Char) : Option Nat :=
  if text.isEmpty then none else digitsFrom? base 0 text

/-- The natural number that an optional plus sign and decimal digits denote. -/
def natural? : List Char → Option Nat
  | '+' :: rest => digits? 10 rest
  | text => digits? 10 text

def integer? : List Char → Option Int
  | '-' :: rest => (digits? 10 rest).map fun value => -(value : Int)
  | '+' :: rest => (digits? 10 rest).map Int.ofNat
  | text => (digits? 10 text).map Int.ofNat

end AuctionLog.Numeral
