import AuctionLog.Json.NumberLiteral
import AuctionLog.Json.StringLiteral

namespace AuctionLog.Json

def isBlank (byte : UInt8) : Bool :=
  byte == 0x20 || byte == 0x0A || byte == 0x09 || byte == 0x0D

def skipBlank (input : List UInt8) : List UInt8 :=
  input.dropWhile isBlank

/-- The rest of a word whose first letter has been read. -/
def readIdent : List UInt8 → List UInt8 → Except Fault (List UInt8)
  | [], rest => .ok rest
  | _ :: _, [] => stop .endInValue []
  | letter :: letters, byte :: rest =>
      if byte = letter then readIdent letters rest else stop .expectedIdent rest

def nullTail : List UInt8 := [0x75, 0x6C, 0x6C]

def trueTail : List UInt8 := [0x72, 0x75, 0x65]

def falseTail : List UInt8 := [0x61, 0x6C, 0x73, 0x65]

/-- Whether a list goes on with an element; if not, its bracket is the next byte. -/
def nextItem (first : Bool) (input : List UInt8) : Reading Bool :=
  match skipBlank input with
  | [] => stop .endInList []
  | byte :: rest =>
      if byte = 0x5D then .ok (false, byte :: rest)
      else if first then .ok (true, byte :: rest)
      else if byte = 0x2C then
        match skipBlank rest with
        | [] => stop .endInValue []
        | next :: after =>
            if next = 0x5D then stop .trailingComma after else .ok (true, next :: after)
      else stop .expectedCommaOrBracket rest

/-- Whether an object goes on with a member, read up to the quote of its name; if not, its brace is
the next byte. -/
def nextKey (first : Bool) (input : List UInt8) : Reading Bool :=
  match skipBlank input with
  | [] => stop .endInObject []
  | byte :: rest =>
      if byte = 0x7D then .ok (false, byte :: rest)
      else if first then
        if byte = 0x22 then .ok (true, rest) else stop .keyNotString rest
      else if byte = 0x2C then
        match skipBlank rest with
        | [] => stop .endInValue []
        | next :: after =>
            if next = 0x22 then .ok (true, after)
            else if next = 0x7D then stop .trailingComma after
            else stop .keyNotString after
      else stop .expectedCommaOrBrace rest

def readColon (input : List UInt8) : Except Fault (List UInt8) :=
  match skipBlank input with
  | [] => stop .endInObject []
  | byte :: rest => if byte = 0x3A then .ok rest else stop .expectedColon rest

/-- The elements of a list from after its bracket, each read by `item`. As every element takes a
byte, a list has fewer of them than the input has bytes. -/
def readItems {α : Type} (item : List UInt8 → Reading α) :
    Nat → Bool → List UInt8 → Except Fault (List α × List UInt8)
  | 0, _, input => stop .endInList input
  | most + 1, first, input => do
      match ← nextItem first input with
      | (false, rest) => .ok ([], rest.drop 1)
      | (true, rest) =>
          let (value, rest) ← item rest
          let (values, rest) ← readItems item most false rest
          .ok (value :: values, rest)

def readMembers {α : Type} (item : List UInt8 → Reading α) :
    Nat → Bool → List UInt8 → Except Fault (List (String × α) × List UInt8)
  | 0, _, input => stop .endInObject input
  | most + 1, first, input => do
      match ← nextKey first input with
      | (false, rest) => .ok ([], rest.drop 1)
      | (true, rest) =>
          let (name, rest) ← StringLiteral.read rest
          let rest ← readColon rest
          let (value, rest) ← item rest
          let (members, rest) ← readMembers item most false rest
          .ok ((name, value) :: members, rest)

/-- Reads one value as it is written, in which as many lists and objects may nest as there are
`levels`. Its numbers are read by `number`, from after their signs. -/
def readTree (number : Bool → List UInt8 → Reading Number) (levels : Nat) (input : List UInt8) :
    Except Fault (Json × List UInt8) :=
  match skipBlank input with
  | [] => stop .endInValue []
  | byte :: rest =>
      if byte = 0x6E then do return (.null, ← readIdent nullTail rest)
      else if byte = 0x74 then do return (.bool true, ← readIdent trueTail rest)
      else if byte = 0x66 then do return (.bool false, ← readIdent falseTail rest)
      else if byte = 0x2D then do
        let (value, rest) ← number true rest
        return (.num value, rest)
      else if NumberLiteral.isDigit byte then do
        let (value, rest) ← number false (byte :: rest)
        return (.num value, rest)
      else if byte = 0x22 then do
        let (value, rest) ← StringLiteral.read rest
        return (.str value, rest)
      else if byte = 0x5B then
        match levels with
        | 0 => stop .tooDeep rest
        | levels + 1 => do
            let (items, rest) ← readItems (readTree number levels) (rest.length + 1) true rest
            return (.arr items, rest)
      else if byte = 0x7B then
        match levels with
        | 0 => stop .tooDeep rest
        | levels + 1 => do
            let (members, rest) ←
              readMembers (readTree number levels) (rest.length + 1) true rest
            return (.obj members, rest)
      else stop .expectedValue rest

/-- Reads one value, for which neither the order of members nor an earlier one of a name matters. -/
def readValue (levels : Nat) (input : List UInt8) : Except Fault (Json × List UInt8) := do
  let (tree, rest) ← readTree NumberLiteral.read levels input
  return (tree.arranged, rest)

def maxLevels : Nat := 127

def readEnd {α : Type} (value : α) (rest : List UInt8) : Except Fault α :=
  match skipBlank rest with
  | [] => .ok value
  | _ :: after => stop .trailingCharacters after

def parse (input : List UInt8) : Except Fault Json := do
  let (value, rest) ← readValue maxLevels input
  readEnd value rest

end AuctionLog.Json
