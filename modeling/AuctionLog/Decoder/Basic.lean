import AuctionLog.Json.Reader

namespace AuctionLog

open Json

/-- How values of a type are read: from a JSON value in hand, and straight from text in which lists
and objects may nest `levels` deep. Of several faults the first is reported, in the order of the
value's members or in that of the text. -/
structure Decoder (α : Type) where
  ofJson : Json → Except Mismatch α
  read : (levels : Nat) → List UInt8 → Except Fault (α × List UInt8)

namespace Decoder

variable {α β : Type}

/-- The value at the front has another type; a malformed scalar is reported as malformed. -/
def refuse (expected : Expected) : List UInt8 → Except Fault α
  | [] => stop .endInValue []
  | byte :: rest =>
      let wrong (found : Found) (rest : List UInt8) : Except Fault α :=
        stop (.misfit (.wrongType found expected)) rest
      if byte = 0x6E then do wrong .null (← readIdent nullTail rest)
      else if byte = 0x74 then do wrong (.bool true) (← readIdent trueTail rest)
      else if byte = 0x66 then do wrong (.bool false) (← readIdent falseTail rest)
      else if byte = 0x2D then do
        let (value, rest) ← NumberLiteral.read true rest
        wrong (.num value) rest
      else if NumberLiteral.isDigit byte then do
        let (value, rest) ← NumberLiteral.read false (byte :: rest)
        wrong (.num value) rest
      else if byte = 0x22 then do
        let (value, rest) ← StringLiteral.read rest
        wrong (.str value) rest
      else if byte = 0x5B then wrong .sequence rest
      else if byte = 0x7B then wrong .map rest
      else stop .expectedValue rest

def wrongType (value : Json) (expected : Expected) : Except Mismatch α :=
  .error (.wrongType (.ofJson value) expected)

def refine (decoder : Decoder α) (check : α → Except Mismatch β) : Decoder β where
  ofJson value := do check (← decoder.ofJson value)
  read levels input := do
    let (value, rest) ← decoder.read levels input
    match check value with
    | .ok result => .ok (result, rest)
    | .error mismatch => stop (.misfit mismatch) rest

def map (f : α → β) (decoder : Decoder α) : Decoder β :=
  decoder.refine fun value => .ok (f value)

def json : Decoder Json where
  ofJson := .ok
  read := readValue

def text : Decoder String where
  ofJson
    | .str value => .ok value
    | value => wrongType value .text
  read _ input :=
    match skipBlank input with
    | [] => stop .endInValue []
    | byte :: rest =>
        if byte = 0x22 then StringLiteral.read rest else refuse .text (byte :: rest)

def flag : Decoder Bool where
  ofJson
    | .bool value => .ok value
    | value => wrongType value .flag
  read _ input :=
    match skipBlank input with
    | [] => stop .endInValue []
    | byte :: rest =>
        if byte = 0x74 then do return (true, ← readIdent trueTail rest)
        else if byte = 0x66 then do return (false, ← readIdent falseTail rest)
        else refuse .flag (byte :: rest)

def number (expected : Expected) (fit : Number → Except Mismatch α) : Decoder α where
  ofJson
    | .num value => fit value
    | value => wrongType value expected
  read _ input :=
    let fitted (value : Number) (rest : List UInt8) : Except Fault (α × List UInt8) :=
      match fit value with
      | .ok result => .ok (result, rest)
      | .error mismatch => stop (.misfit mismatch) rest
    match skipBlank input with
    | [] => stop .endInValue []
    | byte :: rest =>
        if byte = 0x2D then do
          let (value, rest) ← NumberLiteral.read true rest
          fitted value rest
        else if NumberLiteral.isDigit byte then do
          let (value, rest) ← NumberLiteral.read false (byte :: rest)
          fitted value rest
        else refuse expected (byte :: rest)

/-- A whole number below `2 ^ 63` in size; a double is none, whatever its value. -/
def int64 : Decoder Int64 :=
  number .int64 fun
    | .int value lower upper =>
        if value < 0x8000000000000000 then .ok (Int64.ofInt value)
        else .error (.wrongValue (.num (.int value lower upper)) .int64)
    | .double value => .error (.wrongType (.num (.double value)) .int64)

def nat64 : Decoder UInt64 :=
  number .nat64 fun
    | .int value lower upper =>
        if 0 ≤ value then .ok (UInt64.ofNat value.toNat)
        else .error (.wrongValue (.num (.int value lower upper)) .nat64)
    | .double value => .error (.wrongType (.num (.double value)) .nat64)

def optional (decoder : Decoder α) : Decoder (Option α) where
  ofJson
    | .null => .ok none
    | value => do return some (← decoder.ofJson value)
  read levels input :=
    match skipBlank input with
    | 0x6E :: rest => do return (none, ← readIdent nullTail rest)
    | input => do
        let (value, rest) ← decoder.read levels input
        return (some value, rest)

def list (decoder : Decoder α) : Decoder (List α) where
  ofJson
    | .arr items => items.mapM decoder.ofJson
    | value => wrongType value .sequence
  read levels input :=
    match skipBlank input with
    | [] => stop .endInValue []
    | byte :: rest =>
        if byte = 0x5B then
          match levels with
          | 0 => stop .tooDeep rest
          | levels + 1 => readItems (decoder.read levels) (rest.length + 1) true rest
        else refuse .sequence (byte :: rest)

/-- The members of an object by name; of a name that is repeated the last one stays. -/
def object : Decoder Members where
  ofJson
    | .obj members => .ok members
    | value => wrongType value .map
  read levels input :=
    match skipBlank input with
    | [] => stop .endInValue []
    | byte :: rest =>
        if byte = 0x7B then
          match levels with
          | 0 => stop .tooDeep rest
          | levels + 1 => do
              let (members, rest) ← readMembers (readValue levels) (rest.length + 1) true rest
              return (Members.ofList members, rest)
        else refuse .map (byte :: rest)

def pick (choices : List (String × α)) (name : String) : Except Mismatch α :=
  match choices.lookup name with
  | some value => .ok value
  | none => .error (.unknownChoice name (choices.map (·.1)))

/-- A choice of a name carries nothing more, so its content has to be null. -/
def readNothing (input : List UInt8) : Except Fault (List UInt8) :=
  match skipBlank input with
  | [] => stop .endInValue []
  | byte :: rest =>
      if byte = 0x6E then readIdent nullTail rest else refuse .unit (byte :: rest)

def readChoice (choices : List (String × α)) (input : List UInt8) :
    Except Fault (α × List UInt8) := do
  let (name, rest) ← match skipBlank input with
    | [] => stop .endInValue []
    | byte :: rest =>
        if byte = 0x22 then StringLiteral.read rest else refuse .choiceName (byte :: rest)
  match pick choices name with
  | .ok value => .ok (value, rest)
  | .error mismatch => stop (.misfit mismatch) rest

/-- One of a few names, given as a string or as an object with that one name and null. -/
def choice (choices : List (String × α)) : Decoder α where
  ofJson
    | .str name => pick choices name
    | .obj [(name, content)] => do
        let value ← pick choices name
        match content with
        | .null => .ok value
        | content => wrongType content .unit
    | .obj _ => .error (.wrongValue .map .oneMember)
    | value => wrongType value .choice
  read levels input :=
    match skipBlank input with
    | [] => stop .endInValue []
    | byte :: rest =>
        if byte = 0x22 then readChoice choices (byte :: rest)
        else if byte = 0x7B then
          match levels with
          | 0 => stop .tooDeep rest
          | _ + 1 => do
              let (value, rest) ← readChoice choices rest
              let rest ← readNothing (← readColon rest)
              match skipBlank rest with
              | [] => stop .endInObject []
              | byte :: rest =>
                  if byte = 0x7D then .ok (value, rest) else stop .expectedValue rest
        else stop .expectedValue rest

def parse (decoder : Decoder α) (input : List UInt8) : Except Fault α := do
  let (value, rest) ← decoder.read maxLevels input
  readEnd value rest

end Decoder

end AuctionLog
