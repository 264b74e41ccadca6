namespace AuctionLog.Utf8

def encode (text : List Char) : List UInt8 :=
  text.flatMap String.utf8EncodeChar

/-- The character at the front, if a well-formed one stands there. -/
def front? : List UInt8 → Option Char
  | [] => none
  | byte :: rest =>
      if byte < 0x80 then some (Char.ofNat byte.toNat)
      else ((byte :: rest).take 4).toByteArray.utf8DecodeChar? 0

/-- Reads on after `past` bytes, the next `inside` of which belong to a character already read. -/
def decodeFrom (past inside : Nat) (text : List Char) : List UInt8 → Except Nat (List Char)
  | [] => .ok text.reverse
  | byte :: rest =>
      match inside with
      | inside + 1 => decodeFrom (past + 1) inside text rest
      | 0 =>
          match front? (byte :: rest) with
          | none => .error past
          | some char => decodeFrom (past + 1) (char.utf8Size - 1) (char :: text) rest

/-- The text that the bytes hold, or the number of bytes before the first malformed one. -/
def decode (bytes : List UInt8) : Except Nat (List Char) :=
  decodeFrom 0 0 [] bytes

def width (text : List Char) : Nat :=
  (encode text).length

/-- What stands before and after a byte of a text, unless the byte is inside a character. -/
def splitAt? (index : Nat) : List Char → Option (List Char × List Char)
  | [] => if index = 0 then some ([], []) else none
  | char :: rest =>
      if index = 0 then some ([], char :: rest)
      else if char.utf8Size ≤ index then
        (splitAt? (index - char.utf8Size) rest).map fun (before, after) => (char :: before, after)
      else none

/-- A text that was to be cut at a byte inside a character: no one can go on from there. -/
structure Miscut where
  text : String
  index : Nat
deriving DecidableEq

/-- The part of a text from one byte up to another. -/
def slice (text : String) (start stop : Nat) : Except Miscut String :=
  match splitAt? start text.toList with
  | none => .error ⟨text, start⟩
  | some (_, rest) =>
      match splitAt? (stop - start) rest with
      | none => .error ⟨text, stop⟩
      | some (part, _) => .ok (String.ofList part)

end AuctionLog.Utf8
