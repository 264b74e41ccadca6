import AuctionLog.Decoder.Basic
import AuctionLog.Json.Skip

namespace AuctionLog

open Json

/-- Whether a field may be missing: from an object only, from a list too, or from neither. -/
inductive Presence where
  | optional
  | defaulted
  | required
deriving DecidableEq

/-- A field of a record type: the names of its member, and how a value for it changes the record. -/
structure Field (ρ : Type) where
  name : String
  aliases : List String
  presence : Presence
  decoder : Decoder (ρ → ρ)

namespace Field

variable {α ρ : Type}

def optional (name : String) (decoder : Decoder α) (set : ρ → Option α → ρ) : Field ρ :=
  { name, aliases := [], presence := .optional
    decoder := decoder.optional.map fun value record => set record value }

def defaulted (name : String) (decoder : Decoder α) (set : ρ → α → ρ) : Field ρ :=
  { name, aliases := [], presence := .defaulted
    decoder := decoder.map fun value record => set record value }

def required (name : String) (decoder : Decoder α) (set : ρ → α → ρ) : Field ρ :=
  { name, aliases := [], presence := .required
    decoder := decoder.map fun value record => set record value }

def withAlias (field : Field ρ) (name : String) : Field ρ :=
  { field with aliases := name :: field.aliases }

def isNamed (field : Field ρ) (name : String) : Bool :=
  field.name == name || field.aliases.contains name

end Field

namespace Decoder

variable {ρ : Type}

/-- The field of a member that has not been read yet, or nothing for an undeclared member. -/
def fieldFor (fields : List (Field ρ)) (seen : List String) (name : String) :
    Except Mismatch (Option (Field ρ)) :=
  match fields.find? (·.isNamed name) with
  | none => .ok none
  | some field =>
      if seen.contains field.name then .error (.duplicateField field.name) else .ok (some field)

/-- A required field has to be among the members read. -/
def complete (fields : List (Field ρ)) (seen : List String) (record : ρ) : Except Mismatch ρ :=
  match fields.find? fun field => field.presence == .required && !seen.contains field.name with
  | none => .ok record
  | some field => .error (.missingField field.name)

/-- Members in order; undeclared ones have no effect. -/
def ofMembers (fields : List (Field ρ)) (seen : List String) (record : ρ) :
    Members → Except Mismatch ρ
  | [] => complete fields seen record
  | (name, value) :: rest => do
      match ← fieldFor fields seen name with
      | none => ofMembers fields seen record rest
      | some field =>
          let update ← field.decoder.ofJson value
          ofMembers fields (field.name :: seen) (update record) rest

/-- Elements of a list stand for the fields in their order. -/
def ofItems (name : String) (size : Nat) (record : ρ) :
    (position : Nat) → List (Field ρ) → List Json → Except Mismatch ρ
  | position, [], items =>
      if items.isEmpty then .ok record
      else .error (.wrongLength (position + items.length) .fewerItems)
  | position, field :: fields, [] =>
      if field.presence = .defaulted then ofItems name size record (position + 1) fields []
      else .error (.wrongLength position (.recordOf name size))
  | position, field :: fields, item :: items => do
      let update ← field.decoder.ofJson item
      ofItems name size (update record) (position + 1) fields items

def readFields (fields : List (Field ρ)) (levels : Nat) :
    Nat → Bool → List String → ρ → List UInt8 → Except Fault (ρ × List UInt8)
  | 0, _, _, _, input => stop .endInObject input
  | most + 1, first, seen, record, input => do
      match ← nextKey first input with
      | (false, rest) =>
          match complete fields seen record with
          | .ok record => .ok (record, rest.drop 1)
          | .error mismatch => stop (.misfit mismatch) rest
      | (true, rest) =>
          let (name, rest) ← StringLiteral.read rest
          match fieldFor fields seen name with
          | .error mismatch => stop (.misfit mismatch) rest
          | .ok none =>
              let rest ← skipValue (← readColon rest)
              readFields fields levels most false seen record rest
          | .ok (some field) =>
              let (update, rest) ← field.decoder.read levels (← readColon rest)
              readFields fields levels most false (field.name :: seen) (update record) rest

def readListEnd (input : List UInt8) : Except Fault (List UInt8) :=
  match skipBlank input with
  | [] => stop .endInList []
  | byte :: rest =>
      if byte = 0x5D then .ok rest
      else if byte = 0x2C then
        match skipBlank rest with
        | 0x5D :: after => stop .trailingComma after
        | other => stop .trailingCharacters (other.drop 1)
      else stop .trailingCharacters rest

def readPositions (name : String) (size levels : Nat) :
    (position : Nat) → List (Field ρ) → ρ → List UInt8 → Except Fault (ρ × List UInt8)
  | _, [], record, input => do return (record, ← readListEnd input)
  | position, field :: fields, record, input => do
      match ← nextItem (position == 0) input with
      | (false, rest) =>
          if field.presence = .defaulted then
            readPositions name size levels (position + 1) fields record rest
          else stop (.misfit (.wrongLength position (.recordOf name size))) rest
      | (true, rest) =>
          let (update, rest) ← field.decoder.read levels rest
          readPositions name size levels (position + 1) fields (update record) rest

/-- A record, from an object by the names of its fields or from a list by their order. -/
def record (name : String) (fields : List (Field ρ)) (empty : ρ) : Decoder ρ where
  ofJson
    | .obj members => ofMembers fields [] empty members
    | .arr items => ofItems name fields.length empty 0 fields items
    | value => wrongType value (.record name)
  read levels input :=
    match skipBlank input with
    | [] => stop .endInValue []
    | byte :: rest =>
        if byte = 0x7B then
          match levels with
          | 0 => stop .tooDeep rest
          | levels + 1 => readFields fields levels (rest.length + 1) true [] empty rest
        else if byte = 0x5B then
          match levels with
          | 0 => stop .tooDeep rest
          | levels + 1 => readPositions name fields.length levels 0 fields empty rest
        else refuse (.record name) (byte :: rest)

end Decoder

end AuctionLog
