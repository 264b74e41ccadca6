import AuctionLog.Json.Reader

namespace AuctionLog.Json

namespace Skip

inductive Frame where
  | list
  | object
deriving DecidableEq

inductive Due where
  | value
  | first
  /-- What may follow a complete value. -/
  | after

def Frame.closer : Frame → UInt8
  | .list => 0x5D
  | .object => 0x7D

def Frame.ended : Frame → Reason
  | .list => .endInList
  | .object => .endInObject

def Frame.expected : Frame → Reason
  | .list => .expectedCommaOrBracket
  | .object => .expectedCommaOrBrace

/-- Passes over what stands before the next value of a frame: nothing, or a name and its colon. -/
def lead (frame : Frame) (input : List UInt8) : Except Fault (List UInt8) :=
  match frame with
  | .list => .ok input
  | .object =>
      match skipBlank input with
      | [] => stop .endInObject []
      | byte :: rest =>
          if byte = 0x22 then do readColon (← StringLiteral.skip rest)
          else stop .keyNotString rest

/-- Passes over a value with the given frames open, innermost first. Nothing bounds how deep they
nest, and every third step takes a byte. -/
def run : Nat → Due → List Frame → List UInt8 → Except Fault (List UInt8)
  | 0, _, _, input => stop .endInValue input
  | steps + 1, .value, frames, input =>
      match skipBlank input with
      | [] => stop .endInValue []
      | byte :: rest =>
          if byte = 0x6E then do run steps .after frames (← readIdent nullTail rest)
          else if byte = 0x74 then do run steps .after frames (← readIdent trueTail rest)
          else if byte = 0x66 then do run steps .after frames (← readIdent falseTail rest)
          else if byte = 0x2D then do run steps .after frames (← NumberLiteral.skip rest)
          else if NumberLiteral.isDigit byte then do
            run steps .after frames (← NumberLiteral.skip (byte :: rest))
          else if byte = 0x22 then do run steps .after frames (← StringLiteral.skip rest)
          else if byte = 0x5B then run steps .first (.list :: frames) rest
          else if byte = 0x7B then run steps .first (.object :: frames) rest
          else stop .expectedValue rest
  | _ + 1, .first, [], input => .ok input
  | steps + 1, .first, frame :: frames, input =>
      match skipBlank input with
      | [] => stop frame.ended []
      | byte :: rest =>
          if byte = frame.closer then run steps .after frames rest
          else do run steps .value (frame :: frames) (← lead frame (byte :: rest))
  | _ + 1, .after, [], input => .ok input
  | steps + 1, .after, frame :: frames, input =>
      match skipBlank input with
      | [] => stop frame.ended []
      | byte :: rest =>
          if byte = 0x2C then do run steps .value (frame :: frames) (← lead frame rest)
          else if byte = frame.closer then run steps .after frames rest
          else stop frame.expected rest

end Skip

def skipValue (input : List UInt8) : Except Fault (List UInt8) :=
  Skip.run (3 * input.length + 3) .value [] input

end AuctionLog.Json
