import AuctionLog.Decoder.Basic
import AuctionLog.Text.Ascii

namespace AuctionLog

open Json

/-- Names with values in the order they came, as HTTP headers and query parameters do. A name may
come more than once and keeps its spelling, and the case of ASCII letters makes no difference to
which name it is. -/
structure NamedValues where
  entries : List (String × String)
deriving DecidableEq

namespace NamedValues

def empty : NamedValues := ⟨[]⟩

def insert (values : NamedValues) (name value : String) : NamedValues :=
  ⟨values.entries ++ [(name, value)]⟩

def size (values : NamedValues) : Nat :=
  values.entries.length

/-- The value of the last entry with the name. -/
def get? (values : NamedValues) (name : String) : Option String :=
  (values.entries.reverse.find? fun entry => Ascii.sameFold entry.1 name).map (·.2)

/-- The entries that no later one has the name of. -/
def lastOfName : List (String × String) → List (String × String)
  | [] => []
  | entry :: rest =>
      if rest.any fun later => Ascii.sameFold entry.1 later.1 then lastOfName rest
      else entry :: lastOfName rest

/-- One value per name, the last one, in the order of the spellings that came with these values. -/
def single (values : NamedValues) : List (String × String) :=
  (lastOfName values.entries).mergeSort fun left right => left.1 ≤ right.1

def valuesOf : Json → Except Mismatch (List String)
  | .str value => .ok [value]
  | .arr items =>
      match items.mapM fun
        | .str value => some value
        | _ => none with
      | some values => .ok values
      | none => .error .neitherTextNorTexts
  | _ => .error .neitherTextNorTexts

def entriesOf (name : String) (value : Json) : Except Mismatch (List (String × String)) := do
  return (← valuesOf value).map fun value => (name, value)

def ofMembers (members : Members) : Except Mismatch NamedValues := do
  return ⟨(← members.mapM fun member => entriesOf member.1 member.2).flatten⟩

def readEntries (levels : Nat) :
    Nat → Bool → List UInt8 → Except Fault (List (String × String) × List UInt8)
  | 0, _, input => stop .endInObject input
  | most + 1, first, input => do
      match ← nextKey first input with
      | (false, rest) => .ok ([], rest.drop 1)
      | (true, rest) =>
          let (name, rest) ← StringLiteral.read rest
          let (value, rest) ← readValue levels (← readColon rest)
          match entriesOf name value with
          | .error mismatch => stop (.misfit mismatch) rest
          | .ok entries =>
              let (others, rest) ← readEntries levels most false rest
              .ok (entries ++ others, rest)

/-- An object whose members are strings or lists of strings. -/
def decoder : Decoder NamedValues where
  ofJson
    | .obj members => ofMembers members
    | value => Decoder.wrongType value .valuesByName
  read levels input :=
    match skipBlank input with
    | [] => stop .endInValue []
    | byte :: rest =>
        if byte = 0x7B then
          match levels with
          | 0 => stop .tooDeep rest
          | levels + 1 => do
              let (entries, rest) ← readEntries levels (rest.length + 1) true rest
              return (⟨entries⟩, rest)
        else Decoder.refuse .valuesByName (byte :: rest)

def textMembers (entries : List (String × String)) : Json :=
  .obj (entries.map fun entry => (entry.1, .str entry.2))

end NamedValues

end AuctionLog
