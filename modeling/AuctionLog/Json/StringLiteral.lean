import AuctionLog.Json.Fault
import AuctionLog.Text.Utf8

namespace AuctionLog.Json.StringLiteral

inductive Place where
  | plain
  | escape
  /-- Four digits are being collected; a leading surrogate may have come before them. -/
  | hex (leading : Option Nat) (digits : List UInt8)
  /-- A leading surrogate has been read and the backslash of its partner is due. -/
  | pairSlash (leading : Nat)
  | pairLetter (leading : Nat)

def hexDigit? (byte : UInt8) : Option Nat :=
  if 0x30 ≤ byte ∧ byte ≤ 0x39 then some (byte.toNat - 0x30)
  else if 0x41 ≤ byte ∧ byte ≤ 0x46 then some (byte.toNat - 0x37)
  else if 0x61 ≤ byte ∧ byte ≤ 0x66 then some (byte.toNat - 0x57)
  else none

def hexValue? (digits : List UInt8) : Option Nat :=
  digits.foldlM (fun value byte => (hexDigit? byte).map (value * 16 + ·)) 0

def shortEscape? (byte : UInt8) : Option Char :=
  if byte = 0x22 then some '"'
  else if byte = 0x5C then some '\\'
  else if byte = 0x2F then some '/'
  else if byte = 0x62 then some '\x08'
  else if byte = 0x66 then some '\x0c'
  else if byte = 0x6E then some '\n'
  else if byte = 0x72 then some '\x0d'
  else if byte = 0x74 then some '\t'
  else none

/-- What a complete group of four digits means, given the leading surrogate before it. -/
inductive Group where
  | char (char : Char)
  | leading (value : Nat)
  | bad (reason : Reason)

def groupOf (leading : Option Nat) (digits : List UInt8) : Group :=
  match hexValue? digits, leading with
  | none, _ => .bad .badEscape
  | some value, none =>
      if 0xD800 ≤ value ∧ value < 0xDC00 then .leading value
      else if 0xDC00 ≤ value ∧ value < 0xE000 then .bad .loneSurrogate
      else .char (Char.ofNat value)
  | some value, some leading =>
      if 0xDC00 ≤ value ∧ value < 0xE000 then
        .char (Char.ofNat (0x10000 + (leading - 0xD800) * 0x400 + (value - 0xDC00)))
      else .bad .loneSurrogate

/-- The text of a literal whose bytes are all read; `start` is the input after the opening quote. -/
def close (start bytes rest : List UInt8) : Reading String :=
  match Utf8.decode bytes with
  | .ok text => .ok (String.ofList text, rest)
  | .error valid => stop .badCodePoint (start.drop (valid + 1))

/-- The bytes of a text in reverse, with one character more. -/
def pushChar (char : Char) (bytes : List UInt8) : List UInt8 :=
  (String.utf8EncodeChar char).reverse ++ bytes

/-- Reads on inside a literal, with the bytes of the text so far in reverse. -/
def readFrom (start : List UInt8) (place : Place) (bytes : List UInt8) :
    List UInt8 → Reading String
  | [] => stop .endInString []
  | byte :: rest =>
      match place with
      | .plain =>
          if byte = 0x22 then close start bytes.reverse rest
          else if byte = 0x5C then readFrom start .escape bytes rest
          else if byte < 0x20 then stop .controlCharacter rest
          else readFrom start .plain (byte :: bytes) rest
      | .escape =>
          if byte = 0x75 then readFrom start (.hex none []) bytes rest
          else
            match shortEscape? byte with
            | some char => readFrom start .plain (pushChar char bytes) rest
            | none => stop .badEscape rest
      | .hex leading digits =>
          if digits.length < 3 then readFrom start (.hex leading (digits ++ [byte])) bytes rest
          else
            match groupOf leading (digits ++ [byte]) with
            | .char char => readFrom start .plain (pushChar char bytes) rest
            | .leading value => readFrom start (.pairSlash value) bytes rest
            | .bad reason => stop reason rest
      | .pairSlash leading =>
          if byte = 0x5C then readFrom start (.pairLetter leading) bytes rest
          else stop .brokenSurrogatePair rest
      | .pairLetter leading =>
          if byte = 0x75 then readFrom start (.hex (some leading) []) bytes rest
          else stop .brokenSurrogatePair rest

/-- Reads a string literal from just after its opening quote. -/
def read (input : List UInt8) : Reading String :=
  readFrom input .plain [] input

/-- Where the reader stands in a literal that is passed over: escapes are not decoded. -/
inductive SkipPlace where
  | plain
  | escape
  | hex (digits : List UInt8)

def skipFrom (place : SkipPlace) : List UInt8 → Except Fault (List UInt8)
  | [] => stop .endInString []
  | byte :: rest =>
      match place with
      | .plain =>
          if byte = 0x22 then .ok rest
          else if byte = 0x5C then skipFrom .escape rest
          else if byte < 0x20 then stop .controlCharacter rest
          else skipFrom .plain rest
      | .escape =>
          if byte = 0x75 then skipFrom (.hex []) rest
          else if (shortEscape? byte).isSome then skipFrom .plain rest
          else stop .badEscape rest
      | .hex digits =>
          if digits.length < 3 then skipFrom (.hex (digits ++ [byte])) rest
          else if (hexValue? (digits ++ [byte])).isSome then skipFrom .plain rest
          else stop .badEscape rest

def skip (input : List UInt8) : Except Fault (List UInt8) :=
  skipFrom .plain input

end AuctionLog.Json.StringLiteral
