import AuctionLog.Json.Mismatch

namespace AuctionLog.Json

inductive Reason where
  | endInValue
  | endInList
  | endInObject
  | endInString
  | expectedValue
  | expectedIdent
  | expectedColon
  | expectedCommaOrBracket
  | expectedCommaOrBrace
  | keyNotString
  | trailingComma
  | trailingCharacters
  | badNumber
  | numberOutOfRange
  | badEscape
  | loneSurrogate
  | brokenSurrogatePair
  | controlCharacter
  | badCodePoint
  | tooDeep
  /-- The text is JSON, but its value has another shape. -/
  | misfit (mismatch : Mismatch)
deriving DecidableEq

def Reason.message : Reason → String
  | .endInValue => "EOF while parsing a value"
  | .endInList => "EOF while parsing a list"
  | .endInObject => "EOF while parsing an object"
  | .endInString => "EOF while parsing a string"
  | .expectedValue => "expected value"
  | .expectedIdent => "expected ident"
  | .expectedColon => "expected `:`"
  | .expectedCommaOrBracket => "expected `,` or `]`"
  | .expectedCommaOrBrace => "expected `,` or `\x7d`"
  | .keyNotString => "key must be a string"
  | .trailingComma => "trailing comma"
  | .trailingCharacters => "trailing characters"
  | .badNumber => "invalid number"
  | .numberOutOfRange => "number out of range"
  | .badEscape => "invalid escape"
  | .loneSurrogate => "lone leading surrogate in hex escape"
  | .brokenSurrogatePair => "unexpected end of hex escape"
  | .controlCharacter => "control character (\\u0000-\\u001F) found while parsing a string"
  | .badCodePoint => "invalid unicode code point"
  | .tooDeep => "recursion limit exceeded"
  | .misfit mismatch => mismatch.message

inductive Category where
  | ended
  | malformed
  | shape
deriving DecidableEq

def Reason.category : Reason → Category
  | .endInValue | .endInList | .endInObject | .endInString => .ended
  | .misfit _ => .shape
  | _ => .malformed

/-- Where reading stopped for good: the reason, and the bytes after the point it is reported at. -/
structure Fault where
  reason : Reason
  rest : List UInt8
deriving DecidableEq

/-- The line of a point, from one, and the bytes between the last line feed and it. -/
structure Position where
  line : Nat
  column : Nat
deriving DecidableEq

def Position.after (consumed : List UInt8) : Position :=
  { line := consumed.count 0x0A + 1
    column := (consumed.reverse.takeWhile (· ≠ 0x0A)).length }

def Fault.position (fault : Fault) (input : List UInt8) : Position :=
  Position.after (input.take (input.length - fault.rest.length))

def Fault.message (fault : Fault) (input : List UInt8) : String :=
  let position := fault.position input
  fault.reason.message ++ " at line " ++ String.ofList (Nat.toDigits 10 position.line) ++
    " column " ++ String.ofList (Nat.toDigits 10 position.column)

/-- What reading a part of a text gives: the part, and the bytes after it. -/
abbrev Reading (α : Type) := Except Fault (α × List UInt8)

def stop {α : Type} (reason : Reason) (rest : List UInt8) : Except Fault α :=
  .error ⟨reason, rest⟩

end AuctionLog.Json
